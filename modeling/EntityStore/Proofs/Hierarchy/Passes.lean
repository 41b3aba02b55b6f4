import EntityStore.Proofs.Hierarchy.Nodes

set_option autoImplicit false

namespace EntityStore

namespace Checked

theorem put_ok {α : Type} {entries : List α} {position : Nat} (bound : position < entries.length) (entry : α) :
    put entries position entry = .ok (entries.set position entry) := if_pos bound

end Checked

open Checked

namespace Hierarchy

variable {h : Hierarchy} {store : Store} {directory : Directory}

section Prune

def plain (numbers : Renumbering) : Tree.Renumbering := numbers.map (Option.map UInt32.toNat)

-- What a sieve has come to: everything from `read` on is as it was.
structure Sifts (sieve : Sieve) (read : Nat) (entries : List Entry) (worlds : List (Option Mat4)) : Prop where
  entries : sieve.level.entries.drop read = entries
  worlds : sieve.level.worlds.drop read = worlds
  aligned : sieve.level.Aligned
  behind : sieve.write ≤ read
  kept : sieve.kept.toNat = sieve.write

def Sieve.nodes (sieve : Sieve) : List Node := sieve.level.nodes.take sieve.write

theorem take_set_succ {α : Type} {items : List α} {position : Nat} (bound : position < items.length) (a : α) :
    (items.set position a).take (position + 1) = items.take position ++ [a] := by
  rw [List.take_add_one, List.take_set_of_le (Nat.le_refl _), List.getElem?_set_self bound]
  rfl

theorem Sifts.bound {sieve : Sieve} {read : Nat} {entry : Entry} {rest : List Entry}
    {worlds : List (Option Mat4)} (sifts : Sifts sieve read (entry :: rest) worlds) :
    read < sieve.level.entries.length := by
  have lengths := congrArg List.length sifts.entries
  rw [List.length_drop, List.length_cons] at lengths
  omega

theorem Sifts.found {sieve : Sieve} {read : Nat} {entry : Entry} {rest : List Entry}
    {worlds : List (Option Mat4)} (sifts : Sifts sieve read (entry :: rest) worlds) :
    sieve.level.entries[read]? = some entry := by
  rw [← Nat.add_zero read, ← List.getElem?_drop, sifts.entries]
  rfl

theorem sift_kept {sieve : Sieve} {read : Nat} {entry : Entry} {rest : List Entry} {world : Option Mat4}
    {worlds : List (Option Mat4)} (sifts : Sifts sieve read (entry :: rest) (world :: worlds))
    (depth : Nat) (parents : Renumbering) {parentIdx : UInt32}
    (named : (if depth = 0 then some 0 else (parents[entry.parentIdx.toNat]?).join) = some parentIdx)
    (alive : directory.isAlive entry.entity = true) :
    Ensures (fun fault => fault = .sumOverflow ∧ UInt32.size ≤ read + (entry :: rest).length)
      (pruneEntry directory depth parents sieve read) fun next => Sifts next (read + 1) rest worlds ∧
        next.write = sieve.write + 1 ∧
        next.nodes = sieve.nodes ++ [{ entry.node world with parent := parentIdx.toNat }] ∧
        plain next.numbers = plain sieve.numbers ++ [some sieve.write] ∧
        next.rest = { sieve.rest with slots := sieve.rest.slots.insert entry.entity (depth, sieve.write) } := by
  have here : sieve.level.worlds[read]? = some world := by
    rw [← Nat.add_zero read, ← List.getElem?_drop, sifts.worlds]
    rfl
  have passes : (if depth = 0 then some 0 else (parents[entry.parentIdx.toNat]?).join : Option UInt32).filter
      (fun _ => directory.isAlive entry.entity) = some parentIdx := by
    rw [named]
    simp [alive]
  have same : sieve.level.worlds.length = sieve.level.entries.length := sifts.aligned
  have inside : sieve.write < sieve.level.entries.length := Nat.lt_of_le_of_lt sifts.behind sifts.bound
  simp only [pruneEntry, item_ok sifts.found, item_ok here, put_ok inside, put_ok (same ▸ inside), ok_bind, passes]
  refine ensures_bind _ (ensures_mono (next32_ok sieve.kept) ?_ fun _ counted => counted) fun kept counted => ?_
  · rintro fault ⟨rfl, last⟩
    have behind := sifts.behind
    rw [sifts.kept] at last
    rw [List.length_cons]
    exact ⟨rfl, by omega⟩
  · refine ⟨⟨?_, ?_, ?_, ?_, ?_⟩, rfl, ?_, ?_, rfl⟩
    · rw [List.drop_set_of_lt (Nat.lt_succ_of_le sifts.behind), ← List.tail_drop, sifts.entries]
      rfl
    · rw [List.drop_set_of_lt (Nat.lt_succ_of_le sifts.behind), ← List.tail_drop, sifts.worlds]
      rfl
    · simp [Level.Aligned, same]
    · exact Nat.succ_le_succ sifts.behind
    · rw [counted, sifts.kept]
    · rw [Sieve.nodes, Sieve.nodes, Level.nodes, Level.nodes, List.take_zipWith, List.take_zipWith,
        take_set_succ inside, take_set_succ (same ▸ inside), List.zipWith_append (by simp [same])]
      rfl
    · rw [plain, List.map_append, plain, List.map_singleton, Option.map_some, sifts.kept]

theorem sift_dropped {sieve : Sieve} {read : Nat} {entry : Entry} {rest : List Entry} {world : Option Mat4}
    {worlds : List (Option Mat4)} (sifts : Sifts sieve read (entry :: rest) (world :: worlds))
    (depth : Nat) (parents : Renumbering)
    (gone : (if depth = 0 then some 0 else (parents[entry.parentIdx.toNat]?).join) = none ∨
      directory.isAlive entry.entity = false) :
    ∃ next, pruneEntry directory depth parents sieve read = .ok next ∧ Sifts next (read + 1) rest worlds ∧
        next.write = sieve.write ∧ next.nodes = sieve.nodes ∧
        plain next.numbers = plain sieve.numbers ++ [none] ∧ next.rest = forget entry.entity sieve.rest := by
  have passes : (if depth = 0 then some 0 else (parents[entry.parentIdx.toNat]?).join : Option UInt32).filter
      (fun _ => directory.isAlive entry.entity) = none := by
    cases gone with
    | inl orphan => rw [orphan, Option.filter_none]
    | inr dead => simp [dead]
  refine ⟨{ sieve with numbers := sieve.numbers ++ [none], rest := forget entry.entity sieve.rest },
    by simp only [pruneEntry, item_ok sifts.found, ok_bind, passes, pure_eq_ok], ⟨?_, ?_, sifts.aligned,
    Nat.le_succ_of_le sifts.behind, sifts.kept⟩, rfl, rfl, ?_, rfl⟩
  · rw [← List.tail_drop, sifts.entries]
    rfl
  · rw [← List.tail_drop, sifts.worlds]
    rfl
  · rw [plain, List.map_append]
    rfl

structure Strains (sieve final : Sieve) (result : List Node × Tree.Renumbering × Pruned) : Prop where
  aligned : final.level.Aligned
  nodes : final.nodes = sieve.nodes ++ result.1
  numbers : plain final.numbers = plain sieve.numbers ++ result.2.1
  rest : final.rest = result.2.2

theorem Strains.before {sieve next final : Sieve} {result : List Node × Tree.Renumbering × Pruned}
    (strains : Strains next final result) {kept : List Node} {numbers : Tree.Renumbering}
    (nodes : next.nodes = sieve.nodes ++ kept) (renumbered : plain next.numbers = plain sieve.numbers ++ numbers) :
    Strains sieve final (kept ++ result.1, numbers ++ result.2.1, result.2.2) := by
  refine ⟨strains.aligned, ?_, ?_, strains.rest⟩
  · rw [strains.nodes, nodes, List.append_assoc]
  · rw [strains.numbers, renumbered, List.append_assoc]

variable (directory) in
theorem sift_ok (depth : Nat) (parents : Renumbering) (newParent : Nat → Option Nat)
    (named : ∀ i, (if depth = 0 then some 0 else (parents[i]?).join : Option UInt32).map UInt32.toNat = newParent i)
    (entries : List Entry) (worlds : List (Option Mat4)) (sieve : Sieve) (read : Nat)
    (sifts : Sifts sieve read entries worlds) :
    Ensures (fun fault => fault = .sumOverflow ∧ UInt32.size ≤ read + entries.length)
      ((List.range' read entries.length).foldlM (pruneEntry directory depth parents) sieve) fun final =>
        Strains sieve final (Tree.pruneLevel directory newParent depth sieve.write sieve.rest
          (List.zipWith Entry.node entries worlds)) := by
  induction entries generalizing worlds sieve read with
  | nil =>
      exact ⟨sifts.aligned, (List.append_nil _).symm, (List.append_nil _).symm, rfl⟩
  | cons entry rest ih =>
      cases worlds with
      | nil => exact absurd (congrArg List.length sifts.entries) (by
          have lengths := congrArg List.length sifts.worlds
          have same : sieve.level.worlds.length = sieve.level.entries.length := sifts.aligned
          simp only [List.length_drop, List.length_cons, List.length_nil] at lengths ⊢
          omega)
      | cons world worlds =>
          rw [List.length_cons, List.range'_succ, List.foldlM_cons, List.zipWith_cons_cons, Tree.pruneLevel]
          have number := named entry.parentIdx.toNat
          have parent : (entry.node world).parent = entry.parentIdx.toNat := rfl
          have further (fault : Fault) (stopped : fault = .sumOverflow ∧ UInt32.size ≤ read + 1 + rest.length) :
              fault = .sumOverflow ∧ UInt32.size ≤ read + (rest.length + 1) := by
            rw [Nat.add_comm rest.length, ← Nat.add_assoc]
            exact stopped
          -- Whoever is dropped is forgotten, and the sieve goes on with the rest.
          have dropped (gone : (if depth = 0 then some 0 else (parents[entry.parentIdx.toNat]?).join) = none ∨
              directory.isAlive entry.entity = false) :
              Ensures (fun fault => fault = .sumOverflow ∧ UInt32.size ≤ read + (rest.length + 1))
                (pruneEntry directory depth parents sieve read >>= fun sieve =>
                  (List.range' (read + 1) rest.length).foldlM (pruneEntry directory depth parents) sieve)
                fun final =>
                  let result := Tree.pruneLevel directory newParent depth sieve.write
                    (forget entry.entity sieve.rest) (List.zipWith Entry.node rest worlds)
                  Strains sieve final (result.1, none :: result.2.1, result.2.2) := by
            obtain ⟨next, pruned, sifted, write, nodes, numbers, others⟩ := sift_dropped sifts depth parents gone
            rw [pruned, ok_bind, ← write, ← others]
            exact ensures_mono (ih worlds next (read + 1) sifted) further fun final strains =>
              strains.before (nodes.trans (List.append_nil _).symm) numbers
          cases named : newParent (entry.node world).parent with
          | none =>
              rw [parent] at named
              rw [named, Option.map_eq_none_iff] at number
              exact dropped (Or.inl number)
          | some position =>
              by_cases alive : directory.isAlive entry.entity = true
              · rw [parent] at named
                rw [named] at number
                obtain ⟨parentIdx, found, rfl⟩ := Option.map_eq_some_iff.mp number
                have living : directory.isAlive (entry.node world).entity = true := alive
                simp only [if_pos living]
                refine ensures_bind _ (sift_kept sifts depth parents found alive) ?_
                rintro next ⟨sifted, write, nodes, numbers, others⟩
                have later := ih worlds next (read + 1) sifted
                rw [write, others] at later
                exact ensures_mono later further fun final strains => strains.before nodes numbers
              · have dead : ¬ directory.isAlive (entry.node world).entity = true := alive
                simp only [if_neg dead]
                exact dropped (Or.inr (Bool.eq_false_iff.mpr alive))

theorem plain_getD (numbers : Renumbering) (i : Nat) :
    ((numbers[i]?).join).map UInt32.toNat = (plain numbers).getD i none := by
  rw [plain, List.getD_eq_getElem?_getD, List.getElem?_map]
  cases numbers[i]? <;> rfl

theorem prune_level_ok {level : Level} (aligned : level.Aligned) (depth : Nat) (parents : Renumbering)
    (newParent : Nat → Option Nat)
    (named : ∀ i, (if depth = 0 then some 0 else (parents[i]?).join : Option UInt32).map UInt32.toNat = newParent i)
    (p : Pruned) :
    Ensures (fun fault => fault = .sumOverflow ∧ UInt32.size ≤ level.nodes.length)
      (pruneLevel directory depth parents p level) fun (final, numbers, rest) => final.Aligned ∧
        (final.nodes, plain numbers, rest) = Tree.pruneLevel directory newParent depth 0 p level.nodes := by
  have start : Sifts ⟨level, 0, 0, [], p⟩ 0 level.entries level.worlds :=
    ⟨rfl, rfl, aligned, Nat.le_refl 0, rfl⟩
  have sifted := sift_ok directory depth parents newParent named level.entries level.worlds _ 0 start
  rw [Nat.zero_add, ← Level.length_nodes aligned, ← List.range_eq_range', Level.length_nodes aligned] at sifted
  refine ensures_bind _ (ensures_mono sifted ?_ fun _ strains => strains) ?_
  · exact fun fault stopped => Level.length_nodes aligned ▸ stopped
  · intro final strains
    have same : final.level.worlds.length = final.level.entries.length := strains.aligned
    refine ⟨by simp [Level.Aligned, same], ?_⟩
    have nodes := strains.nodes
    rw [Sieve.nodes, Level.nodes, List.take_zipWith] at nodes
    exact Prod.ext nodes (Prod.ext strains.numbers strains.rest)

theorem prune_levels_ok (levels : List Level) (aligned : ∀ level ∈ levels, level.Aligned) (depth : Nat)
    (parents : Renumbering) (newParent : Nat → Option Nat)
    (named : ∀ i, (if depth = 0 then some 0 else (parents[i]?).join : Option UInt32).map UInt32.toNat = newParent i)
    (p : Pruned) :
    Ensures (fun fault => fault = .sumOverflow ∧ ∃ level ∈ levels, UInt32.size ≤ level.nodes.length)
      (pruneLevels directory depth parents p levels) fun (final, rest) => (∀ level ∈ final, level.Aligned) ∧
        (final.map Level.nodes, rest) =
          Tree.pruneLevels directory newParent depth p (levels.map Level.nodes) := by
  induction levels generalizing depth parents newParent p with
  | nil => exact ⟨fun _ member => by contradiction, rfl⟩
  | cons level others ih =>
      obtain ⟨head, tail⟩ := List.forall_mem_cons.mp aligned
      refine ensures_bind _ (ensures_mono (prune_level_ok head depth parents newParent named p) ?_
        fun _ pruned => pruned) ?_
      · rintro fault ⟨stopped, wide⟩
        exact ⟨stopped, level, List.mem_cons_self, wide⟩
      · rintro ⟨first, numbers, middle⟩ ⟨alignedFirst, same⟩
        have below (i : Nat) : (if depth + 1 = 0 then some 0 else (numbers[i]?).join : Option UInt32).map
            UInt32.toNat = (plain numbers).getD i none := by
          rw [if_neg (Nat.succ_ne_zero depth), plain_getD]
        refine ensures_bind _ (ensures_mono (ih tail (depth + 1) numbers _ below middle) ?_ fun _ pruned => pruned) ?_
        · rintro fault ⟨stopped, other, member, wide⟩
          exact ⟨stopped, other, List.mem_cons_of_mem level member, wide⟩
        · rintro ⟨final, rest⟩ ⟨alignedRest, later⟩
          refine ⟨List.forall_mem_cons.mpr ⟨alignedFirst, alignedRest⟩, ?_⟩
          rw [List.map_cons, List.map_cons, Tree.pruneLevels, ← same]
          simp only
          rw [← later]

theorem trim_nodes (levels : List Level) (aligned : ∀ level ∈ levels, level.Aligned) :
    (trim levels).map Level.nodes = Tree.trim (levels.map Level.nodes) ∧
      ∀ level ∈ trim levels, level.Aligned := by
  induction levels with
  | nil => exact ⟨rfl, fun _ member => by contradiction⟩
  | cons level rest ih =>
      obtain ⟨head, tail⟩ := List.forall_mem_cons.mp aligned
      obtain ⟨same, alignedRest⟩ := ih tail
      have empty : level.entries.isEmpty = level.nodes.isEmpty := by
        rw [Bool.eq_iff_iff, List.isEmpty_iff_length_eq_zero, List.isEmpty_iff_length_eq_zero,
          Level.length_nodes head]
      rw [trim, List.map_cons, Tree.trim, ← same, ← empty]
      cases trimmed : trim rest with
      | nil =>
          cases level.entries.isEmpty with
          | true => exact ⟨rfl, fun _ member => by contradiction⟩
          | false => exact ⟨rfl, fun _ single => List.mem_singleton.mp single ▸ head⟩
      | cons first others => exact ⟨rfl, List.forall_mem_cons.mpr ⟨head, trimmed ▸ alignedRest⟩⟩

-- Pruning is pruning the tree, unless a level has more entries than positions.
theorem prune_ok (aligned : h.Aligned) (directory : Directory) :
    Ensures (fun fault => fault = .sumOverflow ∧ ¬ h.tree.Narrow) (h.prune directory) fun next =>
      next.Aligned ∧ next.tree = h.tree.prune directory := by
  refine ensures_bind _ (ensures_mono (prune_levels_ok h.levels aligned 0 [] (fun _ => some 0) (fun _ => rfl)
    ⟨h.slots, h.previous⟩) ?_ fun _ pruned => pruned) ?_
  · rintro fault ⟨stopped, level, member, wide⟩
    obtain ⟨depth, found⟩ := List.mem_iff_getElem?.mp member
    refine ⟨stopped, fun narrow => Nat.not_lt.mpr wide ?_⟩
    have here := narrow depth
    rw [tree_level, List.getD_eq_getElem?_getD, found] at here
    exact here
  · rintro ⟨levels, p⟩ ⟨alignedLevels, same⟩
    obtain ⟨nodes, final⟩ := trim_nodes levels alignedLevels
    refine ⟨final, ?_⟩
    have levelled : h.tree.levels = h.levels.map Level.nodes := rfl
    rw [Tree.prune, levelled]
    have slots : h.tree.slots = h.slots := rfl
    have previous : h.tree.previous = h.previous := rfl
    rw [slots, previous, ← same, tree]
    exact congrArg (fun nodes => ({ levels := nodes, slots := _, previous := _, pending := _ } : Tree)) nodes

end Prune

section EndFrame

theorem end_frame_ok {log : Lineage} (aligned : h.Aligned) (traces : h.tree.Traces log) (sound : directory.Sound)
    (readable : Readable store directory) :
    Ensures (fun fault => fault = .sumOverflow ∧ ¬ (h.tree.Narrow ∧ (h.tree.endFrame store directory).Narrow))
      (h.endFrame store directory) fun next => next.Aligned ∧ next.tree = h.tree.endFrame store directory := by
  refine ensures_bind _ (ensures_mono (prune_ok aligned directory) ?_ fun _ pruned => pruned) ?_
  · rintro fault ⟨stopped, wide⟩
    exact ⟨stopped, fun narrow => wide narrow.1⟩
  · rintro pruned ⟨alignedPruned, same⟩
    have cleared : ({ pruned with pending := [] } : Hierarchy).tree = { h.tree.prune directory with pending := [] } := by
      rw [← same]
      rfl
    have traced := Tree.cleared_traces directory traces
    rw [← cleared] at traced
    have alignedCleared : ({ pruned with pending := [] } : Hierarchy).Aligned := alignedPruned
    refine ensures_mono (flush_ok alignedCleared traced sound readable h.pending) ?_ fun next final => ?_
    · rintro fault ⟨stopped, wide⟩
      rw [cleared] at wide
      exact ⟨stopped, fun narrow => wide narrow.2⟩
    · rw [cleared] at final
      exact final

end EndFrame

section Update

theorem parent_world_eq (parents : Option (List Node)) (i : Nat) :
    ((parents.map (List.map Node.world)).bind fun above => (above[i]?).join) =
      (parents.bind fun level => level[i]?).bind Node.world := by
  cases parents with
  | none => rfl
  | some level =>
      simp only [Option.map_some, Option.bind_some, List.getElem?_map]
      cases level[i]? <;> rfl

theorem update_worlds_alongside (parents : Option (List Node)) (pass : Pass) (entries : List Entry)
    (worlds : List (Option Mat4)) (same : worlds.length = entries.length) :
    Alongside (fun (final, next) (nodes, next') =>
        final.length = entries.length ∧ nodes = List.zipWith Entry.node entries final ∧ next' = next)
      (updateWorlds directory (parents.map (List.map Node.world)) pass entries worlds)
      (Tree.updateLevel directory parents pass (List.zipWith Entry.node entries worlds)) := by
  induction entries generalizing pass worlds with
  | nil =>
      rw [List.length_eq_zero_iff.mp same]
      exact .ok ⟨rfl, rfl, rfl⟩
  | cons entry rest ih =>
      cases worlds with
      | nil => contradiction
      | cons world worlds =>
          rw [List.zipWith_cons_cons, updateWorlds, Tree.updateLevel, Tree.updateNode, parent_world_eq,
            Option.isSome_map]
          simp only [Entry.node]
          generalize updateMember directory parents.isSome _ pass entry.entity world = member
          cases member with
          | error fault => exact .error fault
          | ok updated =>
              rw [ok_map, ok_bind, ok_bind]
              refine alongside_bind (ih updated.2 worlds (Nat.succ.inj same)) ?_
              rintro ⟨final, next⟩ ⟨nodes, _⟩ ⟨sized, rfl, rfl⟩
              exact .ok ⟨congrArg Nat.succ sized, rfl, rfl⟩

theorem update_levels_alongside (levels : List Level) (aligned : ∀ level ∈ levels, level.Aligned)
    (parents : Option (List Node)) (pass : Pass) :
    Alongside (fun (final, next) (nodes, next') => final.map Level.entries = levels.map Level.entries ∧
        (∀ level ∈ final, level.Aligned) ∧ nodes = final.map Level.nodes ∧ next' = next)
      (updateLevels directory (parents.map (List.map Node.world)) pass levels)
      (Tree.updateLevels directory parents pass (levels.map Level.nodes)) := by
  induction levels generalizing parents pass with
  | nil => exact .ok ⟨rfl, fun _ member => by contradiction, rfl, rfl⟩
  | cons level rest ih =>
      obtain ⟨head, tail⟩ := List.forall_mem_cons.mp aligned
      rw [List.map_cons]
      refine alongside_bind (update_worlds_alongside parents pass level.entries level.worlds head) ?_
      rintro ⟨worlds, _⟩ ⟨_, middle⟩ ⟨sized, rfl, rfl⟩
      have alignedLevel : ({ level with worlds } : Level).Aligned := sized
      have others := ih tail (some (Level.nodes { level with worlds })) middle
      rw [Option.map_some, Level.nodes_worlds alignedLevel] at others
      refine alongside_bind others ?_
      rintro ⟨final, next⟩ ⟨_, _⟩ ⟨entries, alignedRest, rfl, rfl⟩
      exact .ok ⟨congrArg (level.entries :: ·) entries, List.forall_mem_cons.mpr ⟨alignedLevel, alignedRest⟩, rfl, rfl⟩

theorem update_alongside (aligned : h.Aligned) (directory : Directory) (store : Store) :
    Alongside (fun (next, final) (tree, final') => next.Aligned ∧
        next.levels.map Level.entries = h.levels.map Level.entries ∧ tree = next.tree ∧ final' = final)
      (h.update directory store) (h.tree.update directory store) := by
  refine alongside_bind (update_levels_alongside h.levels aligned none ⟨store, h.previous⟩) ?_
  rintro ⟨levels, pass⟩ ⟨_, _⟩ ⟨entries, alignedLevels, rfl, rfl⟩
  exact .ok ⟨alignedLevels, entries, rfl, rfl⟩

end Update

end Hierarchy

end EntityStore
