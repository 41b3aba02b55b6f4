import EntityStore.Proofs.Hierarchy.EndFrame

set_option autoImplicit false

namespace EntityStore

namespace Lineage

variable {log other : Lineage} {e : Entity}

theorem mem_chain_iff (link : Entity → Option Entity) (path : List Entity) (entry : Entity × Option Entity) :
    entry ∈ chain link path.reverse ↔ entry.1 ∈ path ∧ entry.2 = link entry.1 := by
  rw [chain, List.mem_map]
  constructor
  · rintro ⟨e, member, rfl⟩
    exact ⟨List.mem_reverse.mp member, rfl⟩
  · rintro ⟨member, named⟩
    exact ⟨entry.1, List.mem_reverse.mpr member, Prod.ext rfl named.symm⟩

-- Who is in a generation depends on the entries of a lineage, not on their order.
theorem mem_peers_congr (same : ∀ entry, entry ∈ log ↔ entry ∈ other) (depth : Nat) (e : Entity) :
    e ∈ log.peers depth ↔ e ∈ other.peers depth := by
  induction depth generalizing e with
  | zero => rw [mem_peers_zero, mem_peers_zero, same]
  | succ depth ih =>
      rw [mem_peers_succ, mem_peers_succ]
      exact exists_congr fun parent => and_congr (ih parent) (same _)

theorem Line.congr (same : ∀ entry, entry ∈ log ↔ entry ∈ other) {path : List Entity}
    (line : log.Line path e) : other.Line path e := by
  induction line with
  | root e rooted => exact .root e ((same _).mp rooted)
  | child path parent e above hangs ih => exact .child path parent e ih ((same _).mp hangs)

end Lineage

namespace Tree

open Hierarchy (hasTransform parentOf?)

variable {h next one other : Tree} {log last : Lineage} {store : Store} {directory : Directory}

section Climb

-- What a climb knows on its way: nobody on its path is a member, and who is alive and not on it is
-- unvisited.
structure Midway (h : Tree) (directory : Directory) (unvisited path : List Entity) : Prop where
  distinct : unvisited.Nodup
  unmet : ∀ e, e ∈ unvisited ↔ directory.isAlive e = true ∧ e ∉ path
  strangers : ∀ e ∈ path, h.contains e = false

theorem midway_start (sound : directory.Sound) {e : Entity} (stranger : h.contains e = false) :
    Midway h directory (directory.handles.erase e) [e] := by
  have distinct := Directory.nodup_handles sound
  refine ⟨distinct.erase e, fun x => ?_, fun x single => List.mem_singleton.mp single ▸ stranger⟩
  rw [distinct.mem_erase_iff, Directory.mem_handles sound, List.mem_singleton]
  exact And.comm

theorem midway_step {unvisited path : List Entity} {parent : Entity}
    (midway : Midway h directory unvisited path) (stranger : h.contains parent = false) :
    Midway h directory (unvisited.erase parent) (path ++ [parent]) := by
  refine ⟨midway.distinct.erase parent, fun e => ?_, fun e member => ?_⟩
  · rw [midway.distinct.mem_erase_iff, midway.unmet, List.mem_append, List.mem_singleton, not_or]
    exact ⟨fun ⟨new, alive, old⟩ => ⟨alive, old, new⟩, fun ⟨alive, old, new⟩ => ⟨new, alive, old⟩⟩
  · rw [List.mem_append, List.mem_singleton] at member
    exact member.elim (midway.strangers e) fun new => new ▸ stranger

inductive Way (h : Tree) (store : Store) (directory : Directory) : Entity → List Entity → Prop where
  | root (e : Entity) (orphan : parentOf? store directory e = none) : Way h store directory e []
  | hanging (e parent : Entity) (named : parentOf? store directory e = some parent)
      (alive : directory.isAlive parent = true) (member : h.contains parent = true) :
      Way h store directory e []
  | on (e parent : Entity) (above : List Entity) (named : parentOf? store directory e = some parent)
      (alive : directory.isAlive parent = true) (stranger : h.contains parent = false)
      (rest : Way h store directory parent above) : Way h store directory e (parent :: above)

theorem way_of_climb (unvisited path : List Entity) (current : Entity) (whole : List Entity)
    (climbed : h.climb store directory unvisited path current = .ok whole) :
    ∃ above, whole = path ++ above ∧ Way h store directory current above := by
  induction unvisited, path, current using climb.induct h store directory with
  | case1 unvisited path current orphan =>
      rw [climb, orphan] at climbed
      obtain rfl := Except.ok.inj climbed
      exact ⟨[], (List.append_nil path).symm, .root current orphan⟩
  | case2 unvisited path current parent named alive unmet member =>
      rw [climb, named] at climbed
      simp only [if_pos alive, dif_pos unmet, if_pos member] at climbed
      obtain rfl := Except.ok.inj climbed
      exact ⟨[], (List.append_nil path).symm, .hanging current parent named alive member⟩
  | case3 unvisited path current parent named alive unmet stranger ih =>
      rw [climb, named] at climbed
      simp only [if_pos alive, dif_pos unmet, if_neg stranger] at climbed
      obtain ⟨above, rfl, rest⟩ := ih climbed
      refine ⟨parent :: above, by simp, .on current parent above named alive ?_ rest⟩
      exact Bool.eq_false_iff.mpr stranger
  | case4 unvisited path current parent named alive met =>
      rw [climb, named] at climbed
      simp only [if_pos alive, dif_neg met] at climbed
      contradiction
  | case5 unvisited path current parent named dead =>
      rw [climb, named] at climbed
      simp only [if_neg dead] at climbed
      contradiction

theorem climb_of_way {current : Entity} {above : List Entity} (way : Way h store directory current above)
    (unvisited path : List Entity) (midway : Midway h directory unvisited path) (distinct : above.Nodup)
    (apart : ∀ e ∈ above, e ∉ path) :
    h.climb store directory unvisited path current = .ok (path ++ above) := by
  induction way generalizing unvisited path with
  | root e orphan => rw [climb, orphan, List.append_nil]
  | hanging e parent named alive member =>
      have unmet : parent ∈ unvisited := (midway.unmet parent).mpr ⟨alive, fun inside => by
        rw [midway.strangers parent inside] at member
        contradiction⟩
      rw [climb, named, List.append_nil]
      simp only [if_pos alive, dif_pos unmet, if_pos member]
  | on e parent above named alive stranger rest ih =>
      obtain ⟨new, distinct⟩ := List.nodup_cons.mp distinct
      have unmet : parent ∈ unvisited := (midway.unmet parent).mpr ⟨alive, apart parent List.mem_cons_self⟩
      rw [climb, named]
      simp only [if_pos alive, dif_pos unmet, stranger, Bool.false_eq_true, if_false]
      rw [ih _ _ (midway_step midway stranger) distinct fun x member inside => ?_, List.append_assoc,
        List.singleton_append]
      rw [List.mem_append, List.mem_singleton] at inside
      exact inside.elim (apart x (List.mem_cons_of_mem parent member)) fun same => new (same ▸ member)

theorem way_from {e x : Entity} {above : List Entity} (way : Way h store directory e above)
    (member : x ∈ above) : h.contains x = false ∧ directory.isAlive x = true ∧
      ∃ rest, Way h store directory x rest ∧ (x :: rest).Sublist above := by
  induction way with
  | root e orphan => contradiction
  | hanging e parent named alive inside => contradiction
  | on e parent above named alive stranger rest ih =>
      cases List.mem_cons.mp member with
      | inl here =>
          subst here
          exact ⟨stranger, alive, above, rest, List.Sublist.refl _⟩
      | inr later =>
          obtain ⟨outside, lives, more, further, part⟩ := ih later
          exact ⟨outside, lives, more, further, part.cons parent⟩

end Climb

section Ascent

theorem ascent_ok (sound : directory.Sound) {e : Entity} {path : List Entity}
    (risen : h.ascent store directory e = .ok path) :
    path.Nodup ∧ (∀ x ∈ path, h.contains x = false ∧ directory.isAlive x = true ∧
      hasTransform store directory x = true) ∧ (h.contains e = true ∧ path = [] ∨
      ∃ above, path = e :: above ∧ Way h store directory e above) := by
  rw [ascent] at risen
  by_cases alive : directory.isAlive e = true
  · rw [if_pos alive] at risen
    by_cases member : h.contains e = true
    · rw [if_pos member] at risen
      obtain rfl := Except.ok.inj risen
      exact ⟨List.nodup_nil, fun x inside => absurd inside List.not_mem_nil, Or.inl ⟨member, rfl⟩⟩
    · rw [if_neg member] at risen
      have stranger := Bool.eq_false_iff.mpr member
      cases climbed : h.climb store directory (directory.handles.erase e) [e] e with
      | error error =>
          rw [climbed] at risen
          contradiction
      | ok whole =>
          simp only [climbed] at risen
          split at risen
          · contradiction
          · next complete =>
            obtain rfl := Except.ok.inj risen
            obtain ⟨above, rfl, way⟩ := way_of_climb _ _ _ _ climbed
            have start := midway_start sound stranger
            have first : Route h (parentOf? store directory) [e] :=
              ⟨List.nodup_singleton e, List.isChain_singleton e, start.strangers⟩
            obtain ⟨route, _⟩ := climb_route _ _ _ first rfl start.distinct
              (fun x member inside => ((start.unmet x).mp inside).2 member) _ climbed
            refine ⟨route.nodup, fun x inside => ⟨route.strangers x inside, ?_, ?_⟩, Or.inr ⟨above, rfl, way⟩⟩
            · cases List.mem_cons.mp inside with
              | inl here => exact here ▸ alive
              | inr higher => exact (way_from way higher).2.1
            · simpa using List.find?_eq_none.mp complete x inside
  · rw [if_neg alive] at risen
    contradiction

end Ascent

section Joined

structure Joined (h next : Tree) (store : Store) (directory : Directory) (way : List Entity) :
    Prop where
  members : ∀ e, next.contains e = true ↔ h.contains e = true ∨ e ∈ way
  fit : ∀ e ∈ way, h.contains e = false ∧ directory.isAlive e = true ∧ hasTransform store directory e = true
  leads : ∀ e ∈ way, ∃ above, Way h store directory e above ∧ (e :: above).Nodup ∧ above ⊆ way

inductive Shortens (way : List Entity) : Outcome (List Entity) → Outcome (List Entity) → Prop where
  | refused (error : StoreError) : Shortens way (.error error) (.error error)
  | ended (path above : List Entity) (inside : above ⊆ way) : Shortens way (.ok (path ++ above)) (.ok path)

variable {way : List Entity}

theorem climb_joined (joined : Joined h next store directory way) (unvisited path : List Entity)
    (current : Entity) (midway : Midway h directory unvisited path) (apart : ∀ e ∈ path, e ∉ way) :
    Shortens way (h.climb store directory unvisited path current)
      (next.climb store directory unvisited path current) := by
  have stays (path : List Entity) : Shortens way (.ok path) (.ok path) := by
    simpa using Shortens.ended path [] (List.nil_subset way)
  induction unvisited, path, current using climb.induct h store directory with
  | case1 unvisited path current orphan =>
      rw [climb, climb, orphan]
      exact stays path
  | case2 unvisited path current parent named alive unmet member =>
      have still : next.contains parent = true := (joined.members parent).mpr (Or.inl member)
      rw [climb, climb, named]
      simp only [if_pos alive, dif_pos unmet, if_pos member, if_pos still]
      exact stays path
  | case3 unvisited path current parent named alive unmet stranger ih =>
      have further := midway_step midway (Bool.eq_false_iff.mpr stranger)
      rw [climb, climb.eq_def next, named]
      simp only [if_pos alive, dif_pos unmet, if_neg stranger]
      by_cases onto : parent ∈ way
      -- Here the climb ends now. Before, it followed the way.
      · obtain ⟨above, rest, distinct, part⟩ := joined.leads parent onto
        obtain ⟨new, distinct⟩ := List.nodup_cons.mp distinct
        have followed := climb_of_way rest _ _ further distinct fun e member inside => by
          rw [List.mem_append, List.mem_singleton] at inside
          exact inside.elim (fun old => apart e old (part member)) fun same => new (same ▸ member)
        rw [if_pos ((joined.members parent).mpr (Or.inr onto)), followed, List.append_assoc]
        exact .ended path (parent :: above) (List.cons_subset.mpr ⟨onto, part⟩)
      · rw [if_neg fun member => ((joined.members parent).mp member).elim stranger onto]
        refine ih further fun e member => ?_
        rw [List.mem_append, List.mem_singleton] at member
        exact member.elim (apart e) fun new => new ▸ onto
  | case4 unvisited path current parent named alive met =>
      rw [climb, climb, named]
      simp only [if_pos alive, dif_neg met]
      exact .refused _
  | case5 unvisited path current parent named dead =>
      rw [climb, climb, named]
      simp only [if_neg dead]
      exact .refused _

theorem ascent_joined (sound : directory.Sound) (joined : Joined h next store directory way) (e : Entity) :
    Shortens way (h.ascent store directory e) (next.ascent store directory e) := by
  rw [ascent, ascent]
  by_cases alive : directory.isAlive e = true
  · rw [if_pos alive, if_pos alive]
    by_cases member : h.contains e = true
    · rw [if_pos member, if_pos ((joined.members e).mpr (Or.inl member))]
      exact .ended [] [] (List.nil_subset way)
    · have start := midway_start sound (Bool.eq_false_iff.mpr member)
      rw [if_neg member]
      by_cases onto : e ∈ way
      · obtain ⟨above, rest, distinct, part⟩ := joined.leads e onto
        obtain ⟨new, distinct⟩ := List.nodup_cons.mp distinct
        have inside : e :: above ⊆ way := List.cons_subset.mpr ⟨onto, part⟩
        have complete : (e :: above).find? (fun x => !hasTransform store directory x) = none :=
          List.find?_eq_none.mpr fun x there => by simp [(joined.fit x (inside there)).2.2]
        have followed := climb_of_way rest _ _ start distinct fun x there single =>
          new (List.mem_singleton.mp single ▸ there)
        rw [if_pos ((joined.members e).mpr (Or.inr onto)), followed]
        simp only [List.singleton_append, complete]
        exact .ended [] (e :: above) inside
      · have climbs := climb_joined joined _ _ e start fun x single => List.mem_singleton.mp single ▸ onto
        rw [if_neg fun inside => ((joined.members e).mp inside).elim member onto]
        generalize h.climb store directory (directory.handles.erase e) [e] e = before at climbs
        generalize next.climb store directory (directory.handles.erase e) [e] e = after at climbs
        cases climbs with
        | refused error => exact .refused error
        | ended path above inside =>
            have complete : above.find? (fun x => !hasTransform store directory x) = none :=
              List.find?_eq_none.mpr fun x there => by simp [(joined.fit x (inside there)).2.2]
            simp only [List.find?_append, complete, Option.or_none]
            cases path.find? fun x => !hasTransform store directory x with
            | none => exact .ended path above inside
            | some missing => exact .refused _
  · rw [if_neg alive, if_neg alive]
    exact .refused _

end Joined

section Trials

def fate (h : Tree) (store : Store) (directory : Directory) (e : Entity) : Outcome Unit :=
  (h.ascent store directory e).map fun _ => ()

def fates (store : Store) (directory : Directory) : Tree → List Entity → List (Outcome Unit)
  | _, [] => []
  | h, e :: rest => h.fate store directory e :: fates store directory (h.tried store directory e) rest

theorem mem_grafts_iff (h : Tree) (store : Store) (directory : Directory) (e : Entity)
    (entry : Entity × Option Entity) : entry ∈ h.grafts store directory e ↔
      entry.1 ∈ h.joining store directory e ∧ entry.2 = parentOf? store directory entry.1 :=
  Lineage.mem_chain_iff _ _ entry

theorem tried_contains (store : Store) (sound : directory.Sound) (traces : Traces h log) (e x : Entity) :
    (h.tried store directory e).contains x = true ↔
      h.contains x = true ∨ x ∈ h.joining store directory e := by
  rw [(tried_traces store sound traces e).contains_iff, traces.contains_iff, Lineage.members, List.map_append,
    List.mem_append]
  refine or_congr_right ?_
  show x ∈ (h.landed store directory e).members ↔ _
  rw [members_landed, List.mem_reverse]

theorem tried_joined (store : Store) (sound : directory.Sound) (traces : Traces h log) (e : Entity) :
    Joined h (h.tried store directory e) store directory (h.joining store directory e) := by
  have contains := tried_contains store sound traces e
  cases risen : h.ascent store directory e with
  | error error =>
      rw [joining_error risen] at contains ⊢
      exact ⟨contains, fun _ member => by contradiction, fun _ member => by contradiction⟩
  | ok path =>
      rw [joining_ok risen] at contains ⊢
      obtain ⟨distinct, fit, start⟩ := ascent_ok sound risen
      refine ⟨contains, fit, fun x member => ?_⟩
      obtain ⟨-, rfl⟩ | ⟨above, rfl, way⟩ := start
      · contradiction
      · cases List.mem_cons.mp member with
        | inl here =>
            subst here
            exact ⟨above, way, distinct, List.subset_cons_self x above⟩
        | inr higher =>
            obtain ⟨-, -, rest, further, part⟩ := way_from way higher
            have whole := part.cons e
            exact ⟨rest, further, distinct.sublist whole, fun y inside =>
              whole.subset (List.mem_cons_of_mem x inside)⟩

theorem fate_tried (sound : directory.Sound) (traces : Traces h log) (a e : Entity) :
    (h.tried store directory a).fate store directory e = h.fate store directory e := by
  have shortens := ascent_joined sound (tried_joined store sound traces a) e
  rw [fate, fate]
  generalize h.ascent store directory e = before at shortens
  generalize (h.tried store directory a).ascent store directory e = after at shortens
  cases shortens <;> rfl

-- What two trials leave together is what each would leave alone.
theorem mem_grafts_tried (sound : directory.Sound) (traces : Traces h log) (a e : Entity)
    (entry : Entity × Option Entity) :
    (entry ∈ h.grafts store directory a ∨
        entry ∈ (h.tried store directory a).grafts store directory e) ↔
      (entry ∈ h.grafts store directory a ∨ entry ∈ h.grafts store directory e) := by
  have shortens := ascent_joined sound (tried_joined store sound traces a) e
  rw [mem_grafts_iff, mem_grafts_iff, mem_grafts_iff, joining.eq_def h store directory e,
    joining.eq_def (h.tried store directory a)]
  generalize h.ascent store directory e = before at shortens
  generalize (h.tried store directory a).ascent store directory e = after at shortens
  cases shortens with
  | refused error => exact Iff.rfl
  | ended path above inside =>
      simp only [List.mem_append, ← or_and_right]
      refine and_congr_left fun _ => ?_
      rw [or_left_comm, or_iff_left_of_imp (inside ·), or_comm]

theorem mem_flushed_iff (sound : directory.Sound) (traces : Traces h log) (past : Lineage)
    (es : List Entity) (entry : Entity × Option Entity) : entry ∈ flushed store directory h past es ↔
      entry ∈ past ∨ ∃ e ∈ es, entry ∈ h.grafts store directory e := by
  induction es generalizing h log past with
  | nil => simp [flushed]
  | cons e rest ih =>
      rw [flushed, ih (tried_traces store sound traces e), List.mem_append, List.exists_mem_cons_iff,
        or_assoc]
      refine or_congr_right ?_
      constructor
      · rintro (here | ⟨x, member, later⟩)
        · exact Or.inl here
        · exact ((mem_grafts_tried sound traces e x entry).mp (Or.inr later)).imp_right fun old =>
            ⟨x, member, old⟩
      · rintro (here | ⟨x, member, later⟩)
        · exact Or.inl here
        · exact ((mem_grafts_tried sound traces e x entry).mpr (Or.inr later)).imp_right fun new =>
            ⟨x, member, new⟩

theorem mem_flushed_perm (store : Store) (sound : directory.Sound) (traces : Traces h log)
    (past : Lineage) {es others : List Entity} (perm : es.Perm others) (entry : Entity × Option Entity) :
    entry ∈ flushed store directory h past es ↔ entry ∈ flushed store directory h past others := by
  rw [mem_flushed_iff sound traces, mem_flushed_iff sound traces]
  exact or_congr_right (exists_congr fun e => and_congr_left fun _ => perm.mem_iff)

end Trials

section Agreement

theorem Traces.slot_none (traces : Traces h log) {e : Entity} (stranger : e ∉ log.members) :
    h.slots.find? e = none := by
  by_contra found
  exact stranger ((traces.contains_iff e).mp (Option.isSome_iff_ne_none.mpr found))

theorem Traces.world_none (traces : Traces h log) {e : Entity} (stranger : e ∉ log.members) :
    h.world? e = none := by
  rw [world?, node?, traces.slot_none stranger]
  rfl

def above? (h : Tree) (e : Entity) : Option Entity :=
  match h.slots.find? e with
  | some (depth + 1, position) => do
    let node ← (h.level (depth + 1))[position]?
    let above ← (h.level depth)[node.parent]?
    return above.entity
  | _ => none

theorem above_eq (traces : Traces h log) {e : Entity} {parent : Option Entity} (listed : (e, parent) ∈ log) :
    h.above? e = parent := by
  have member : e ∈ log.members := List.mem_map.mpr ⟨_, listed, rfl⟩
  obtain ⟨⟨depth, position⟩, slot⟩ := Option.ne_none_iff_exists'.mp (traces.slot_ne_none member)
  have peer := (traces.slots e depth position).mp slot
  rw [above?, slot]
  cases depth with
  | zero =>
      have rooted := (Lineage.mem_peers_zero log e).mp (List.mem_of_getElem? peer)
      exact traces.grown.parent_unique rooted listed
  | succ depth =>
      rw [← traces.entities, List.getElem?_map] at peer
      obtain ⟨node, found, rfl⟩ := Option.map_eq_some_iff.mp peer
      have place : (log.generation (depth + 1))[position]? = some node.place := by
        rw [← traces.levels, List.getElem?_map, found, Option.map_some]
      obtain ⟨above, there, hangs⟩ := (Lineage.mem_generation_succ log depth _ _).mp (List.mem_of_getElem? place)
      rw [← traces.entities, List.getElem?_map] at there
      obtain ⟨upper, higher, rfl⟩ := Option.map_eq_some_iff.mp there
      have upward : (h.level depth)[node.parent]? = some upper := higher
      simp only [found, upward, Option.bind_eq_bind, Option.bind_some]
      exact traces.grown.parent_unique hangs listed

structure Agrees (one other : Tree) : Prop where
  members : ∀ e, one.contains e = other.contains e
  depths : ∀ e, one.depthOf? e = other.depthOf? e
  parents : ∀ e, one.above? e = other.above? e
  levels : ∀ depth, ((one.level depth).map Node.entity).Perm ((other.level depth).map Node.entity)

theorem agrees_of_entries (traces : Traces one log) (others : Traces other last)
    (same : ∀ entry, entry ∈ log ↔ entry ∈ last) : Agrees one other := by
  have members (e : Entity) : e ∈ log.members ↔ e ∈ last.members := by
    rw [Lineage.members, Lineage.members, List.mem_map, List.mem_map]
    exact exists_congr fun entry => and_congr_left fun _ => same entry
  refine ⟨fun e => ?_, fun e => ?_, fun e => ?_, fun depth => ?_⟩
  · rw [Bool.eq_iff_iff, traces.contains_iff, others.contains_iff, members]
  · by_cases member : e ∈ log.members
    · obtain ⟨⟨depth, position⟩, slot⟩ := Option.ne_none_iff_exists'.mp (traces.slot_ne_none member)
      have peer := List.mem_of_getElem? ((traces.slots e depth position).mp slot)
      obtain ⟨place, found⟩ := List.mem_iff_getElem?.mp ((Lineage.mem_peers_congr same depth e).mp peer)
      rw [depthOf?, depthOf?, slot, (others.slots e depth place).mpr found]
      rfl
    · rw [depthOf?, depthOf?, traces.slot_none member, others.slot_none (mt (members e).mpr member)]
  · by_cases member : e ∈ log.members
    · obtain ⟨⟨_, parent⟩, listed, rfl⟩ := List.mem_map.mp member
      rw [above_eq traces listed, above_eq others ((same _).mp listed)]
    · rw [above?, above?, traces.slot_none member, others.slot_none (mt (members e).mpr member)]
  · rw [traces.entities, others.entities]
    exact (List.perm_ext_iff_of_nodup (traces.grown.nodup_peers depth) (others.grown.nodup_peers depth)).mpr
      (Lineage.mem_peers_congr same depth)

end Agreement

end Tree

end EntityStore
