import EntityStore.Proofs.Hierarchy.Insertion
import EntityStore.Proofs.Directory.Residents
import Mathlib.Data.List.Chain

set_option autoImplicit false

namespace EntityStore

namespace Lineage

def chain (link : Entity → Option Entity) (path : List Entity) : Lineage := path.map fun e => (e, link e)

end Lineage

namespace Tree

open Hierarchy (hasTransform parentOf?)

variable {h : Tree} {log : Lineage} {store : Store} {directory : Directory}

structure Route (h : Tree) (link : Entity → Option Entity) (path : List Entity) : Prop where
  nodup : path.Nodup
  linked : path.IsChain fun child parent => link child = some parent
  strangers : ∀ e ∈ path, h.contains e = false

def Ends (h : Tree) (link : Entity → Option Entity) (path : List Entity) : Prop :=
  ∀ e, path.getLast? = some e → ∀ parent, link e = some parent → h.contains parent = true

theorem climb_route (unvisited path : List Entity) (current : Entity)
    (route : Route h (parentOf? store directory) path) (last : path.getLast? = some current)
    (distinct : unvisited.Nodup) (apart : ∀ e ∈ path, e ∉ unvisited) (whole : List Entity)
    (climbed : h.climb store directory unvisited path current = .ok whole) :
    Route h (parentOf? store directory) whole ∧ Ends h (parentOf? store directory) whole := by
  induction unvisited, path, current using climb.induct h store directory with
  | case1 unvisited path current orphan =>
      rw [climb, orphan] at climbed
      obtain rfl := Except.ok.inj climbed
      refine ⟨route, fun e found parent named => ?_⟩
      obtain rfl := Option.some.inj (last.symm.trans found)
      rw [orphan] at named
      contradiction
  | case2 unvisited path current parent named alive unmet member =>
      rw [climb, named] at climbed
      simp only [if_pos alive, dif_pos unmet, if_pos member] at climbed
      obtain rfl := Except.ok.inj climbed
      refine ⟨route, fun e found parent' named' => ?_⟩
      obtain rfl := Option.some.inj (last.symm.trans found)
      obtain rfl := Option.some.inj (named.symm.trans named')
      exact member
  | case3 unvisited path current parent named alive unmet stranger ih =>
      rw [climb, named] at climbed
      simp only [if_pos alive, dif_pos unmet, if_neg stranger] at climbed
      have other : parent ∉ path := fun member => apart parent member unmet
      refine ih ⟨?_, ?_, ?_⟩ List.getLast?_concat ?_ ?_ climbed
      · exact List.nodup_append.mpr ⟨route.nodup, List.nodup_singleton parent, fun a inside b single same =>
          other (List.mem_singleton.mp single ▸ same ▸ inside)⟩
      · refine List.isChain_append.mpr ⟨route.linked, List.isChain_singleton parent, fun a found b single => ?_⟩
        obtain rfl := Option.some.inj (last.symm.trans found)
        obtain rfl := Option.some.inj single
        exact named
      · intro e member
        rw [List.mem_append, List.mem_singleton] at member
        cases member with
        | inl inside => exact route.strangers e inside
        | inr new => exact new ▸ Bool.eq_false_iff.mpr stranger
      · exact distinct.erase parent
      · intro e member inside
        rw [List.mem_append, List.mem_singleton] at member
        rw [distinct.mem_erase_iff] at inside
        cases member with
        | inl old => exact apart e old inside.2
        | inr new => exact inside.1 new
  | case4 unvisited path current parent named alive met =>
      rw [climb, named] at climbed
      simp only [if_pos alive, dif_neg met] at climbed
      contradiction
  | case5 unvisited path current parent named dead =>
      rw [climb, named] at climbed
      simp only [if_neg dead] at climbed
      contradiction

theorem climb_start {unvisited path whole : List Entity} {current e : Entity} (start : e ∈ path)
    (climbed : h.climb store directory unvisited path current = .ok whole) : e ∈ whole := by
  induction unvisited, path, current using climb.induct h store directory with
  | case1 unvisited path current orphan =>
      rw [climb, orphan] at climbed
      exact Except.ok.inj climbed ▸ start
  | case2 unvisited path current parent named alive unmet member =>
      rw [climb, named] at climbed
      simp only [if_pos alive, dif_pos unmet, if_pos member] at climbed
      exact Except.ok.inj climbed ▸ start
  | case3 unvisited path current parent named alive unmet stranger ih =>
      rw [climb, named] at climbed
      simp only [if_pos alive, dif_pos unmet, if_neg stranger] at climbed
      exact ih (List.mem_append_left _ start) climbed
  | case4 unvisited path current parent named alive met =>
      rw [climb, named] at climbed
      simp only [if_pos alive, dif_neg met] at climbed
      contradiction
  | case5 unvisited path current parent named dead =>
      rw [climb, named] at climbed
      simp only [if_neg dead] at climbed
      contradiction

def hungs (h : Tree) (link : Entity → Option Entity) : List Entity → Lineage
  | [] => []
  | e :: rest => hungs h link rest ++ [(e, (h.graft link rest).hung (link e))]

theorem members_hungs (h : Tree) (link : Entity → Option Entity) (path : List Entity) :
    (hungs h link path).members = path.reverse := by
  induction path with
  | nil => rfl
  | cons e rest ih => rw [hungs, Lineage.members_snoc, ih, List.reverse_cons]

theorem graft_traces (link : Entity → Option Entity) (path : List Entity) (traces : Traces h log)
    (distinct : path.Nodup) (strangers : ∀ e ∈ path, h.contains e = false) :
    Traces (h.graft link path) (log ++ hungs h link path) := by
  induction path with
  | nil =>
      rw [hungs, List.append_nil]
      exact traces
  | cons e rest ih =>
      obtain ⟨other, distinct⟩ := List.nodup_cons.mp distinct
      have above := ih distinct fun x member => strangers x (List.mem_cons_of_mem e member)
      have fresh : e ∉ Lineage.members (log ++ hungs h link rest) := by
        rw [Lineage.members, List.map_append, List.mem_append, not_or]
        refine ⟨fun old => ?_, fun new => ?_⟩
        · have member := (traces.contains_iff e).mpr old
          rw [strangers e List.mem_cons_self] at member
          contradiction
        · exact other (List.mem_reverse.mp (members_hungs h link rest ▸ new))
      rw [hungs, ← List.append_assoc]
      exact insert_one_traces above fresh (link e)

theorem grafted_badges (h : Tree) (link : Entity → Option Entity) (path : List Entity) (depth : Nat) :
    Widens path ((h.level depth).map Node.badge)
      (((h.graft link path).level depth).map Node.badge) := by
  induction path with
  | nil => exact widens_refl [] _
  | cons e rest ih =>
      have step := insert_one_badges (h.graft link rest) e (link e) depth
      refine ⟨ih.kept.trans step.kept, fun badge listed => ?_⟩
      obtain before | ⟨single, fresh⟩ := step.added badge listed
      · exact (ih.added badge before).imp_right fun ⟨inside, fresh⟩ => ⟨List.mem_cons_of_mem e inside, fresh⟩
      · exact Or.inr ⟨List.mem_singleton.mp single ▸ List.mem_cons_self, fresh⟩

theorem grafted_length (h : Tree) (link : Entity → Option Entity) (path : List Entity) (depth : Nat) :
    (h.level depth).length ≤ ((h.graft link path).level depth).length := by
  simpa using (grafted_badges h link path depth).kept.length_le

-- From the top of a route on, each entity finds its parent among the members, and if all positions
-- fit then it is the parent that it comes to hang on.
theorem hungs_eq (link : Entity → Option Entity) (path : List Entity) (traces : Traces h log)
    (route : Route h link path) (ends : Ends h link path)
    (narrow : (h.graft link path).Narrow) :
    hungs h link path = .chain link path.reverse := by
  induction path with
  | nil => rfl
  | cons e rest ih =>
      obtain ⟨other, distinct⟩ := List.nodup_cons.mp route.nodup
      have strangers (x : Entity) (member : x ∈ rest) := route.strangers x (List.mem_cons_of_mem e member)
      have narrow : (h.graft link rest).Narrow := fun depth =>
        Nat.lt_of_le_of_lt (grafted_length _ link [e] depth) (narrow depth)
      have before := ih ⟨distinct, route.linked.tail, strangers⟩ (fun x last => ends x (by
        rw [List.getLast?_cons, last, Option.getD_some])) narrow
      have above := graft_traces link rest traces distinct strangers
      have known (parent : Entity) (named : link e = some parent) :
          parent ∈ Lineage.members (log ++ hungs h link rest) := by
        rw [Lineage.members, List.map_append, List.mem_append]
        cases rest with
        | nil => exact Or.inl ((traces.contains_iff parent).mp (ends e rfl parent named))
        | cons next rest =>
            have linked := (List.isChain_cons_cons.mp route.linked).1
            have next : parent = next := Option.some.inj (named.symm.trans linked)
            refine Or.inr (List.mem_reverse.mp ?_)
            show parent ∈ (Lineage.members _).reverse
            rw [members_hungs, List.reverse_reverse]
            exact next ▸ List.mem_cons_self
      rw [hungs, above.hung_eq narrow (link e) known, before, List.reverse_cons, Lineage.chain, Lineage.chain,
        List.map_append]
      rfl

-- A parent at the last position needs a level that has all of them.
theorem Traces.wide (traces : Traces h log)
    (last : ∃ depth, ∃ node ∈ h.level depth, node.parent + 1 = UInt32.size) : ¬ h.Narrow := by
  obtain ⟨depth, node, member, last⟩ := last
  have place : node.place ∈ log.generation depth := traces.levels depth ▸ List.mem_map_of_mem member
  cases depth with
  | zero =>
      have first : node.parent = 0 := ((Lineage.mem_generation_zero log _ _).mp place).1
      rw [first] at last
      contradiction
  | succ depth =>
      obtain ⟨parent, found, _⟩ := (Lineage.mem_generation_succ log depth _ _).mp place
      obtain ⟨bound, _⟩ := List.getElem?_eq_some_iff.mp found
      rw [← traces.entities, List.length_map] at bound
      intro narrow
      have small := narrow depth
      omega

section Tried

variable {e : Entity}

theorem joining_ok {path : List Entity} (risen : h.ascent store directory e = .ok path) :
    h.joining store directory e = path := by
  rw [joining, risen]

theorem joining_error {error : StoreError} (refused : h.ascent store directory e = .error error) :
    h.joining store directory e = [] := by
  rw [joining, refused]

theorem joining_route (sound : directory.Sound) (h : Tree) (store : Store) (e : Entity) :
    Route h (parentOf? store directory) (h.joining store directory e) ∧
      Ends h (parentOf? store directory) (h.joining store directory e) := by
  have nobody : Route h (parentOf? store directory) [] ∧ Ends h (parentOf? store directory) [] :=
    ⟨⟨List.nodup_nil, List.isChain_nil, fun _ member => by contradiction⟩, fun _ last => by contradiction⟩
  rw [joining, ascent]
  by_cases alive : directory.isAlive e = true
  · rw [if_pos alive]
    by_cases member : h.contains e = true
    · rw [if_pos member]
      exact nobody
    · rw [if_neg member]
      cases climbed : h.climb store directory (directory.handles.erase e) [e] e with
      | error error => exact nobody
      | ok path =>
          simp only
          cases path.find? fun member => !hasTransform store directory member with
          | some missing => exact nobody
          | none =>
              have distinct := Directory.nodup_handles sound
              have start : Route h (parentOf? store directory) [e] :=
                ⟨List.nodup_singleton e, List.isChain_singleton e, fun x single =>
                  List.mem_singleton.mp single ▸ Bool.eq_false_iff.mpr member⟩
              exact climb_route (directory.handles.erase e) [e] e start rfl (distinct.erase e)
                (fun x single inside => (distinct.mem_erase_iff.mp inside).1 (List.mem_singleton.mp single))
                path climbed
  · rw [if_neg alive]
    exact nobody

def grafts (h : Tree) (store : Store) (directory : Directory) (e : Entity) : Lineage :=
  .chain (parentOf? store directory) (h.joining store directory e).reverse

def landed (h : Tree) (store : Store) (directory : Directory) (e : Entity) : Lineage :=
  hungs h (parentOf? store directory) (h.joining store directory e)

theorem members_landed (h : Tree) (store : Store) (directory : Directory) (e : Entity) :
    (h.landed store directory e).members = (h.joining store directory e).reverse :=
  members_hungs h _ _

theorem tried_badges (h : Tree) (store : Store) (directory : Directory) (e : Entity) (depth : Nat) :
    Widens (h.joining store directory e) ((h.level depth).map Node.badge)
      (((h.tried store directory e).level depth).map Node.badge) :=
  grafted_badges h _ _ depth

theorem tried_traces (store : Store) (sound : directory.Sound) (traces : Traces h log) (e : Entity) :
    Traces (h.tried store directory e) (log ++ h.landed store directory e) := by
  obtain ⟨route, _⟩ := joining_route sound h store e
  exact graft_traces _ _ traces route.nodup route.strangers

theorem tried_length (h : Tree) (store : Store) (directory : Directory) (e : Entity) (depth : Nat) :
    (h.level depth).length ≤ ((h.tried store directory e).level depth).length :=
  grafted_length h _ _ depth

theorem landed_eq (sound : directory.Sound) (traces : Traces h log) (e : Entity)
    (narrow : (h.tried store directory e).Narrow) :
    h.landed store directory e = h.grafts store directory e := by
  obtain ⟨route, ends⟩ := joining_route sound h store e
  exact hungs_eq _ _ traces route ends narrow

end Tried

end Tree

end EntityStore
