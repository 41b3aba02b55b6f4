import EntityStore.Block.Split.Operation
import EntityStore.Proofs.Block.Changes
import EntityStore.Proofs.Block.Split

set_option autoImplicit false

namespace EntityStore

open Checked

namespace Block

variable {registry : Registry} {b : Block}

structure Grants (registry : Registry) (b : Block) (type : ComponentType) : Prop where
  known : registry.check type = .ok ()
  present : b.signature.contains type.id = true

theorem grants_iff (laid : b.Laid registry) (type : ComponentType) :
    b.Grants registry type ↔ ∃ c, b.typedColumn? type = some c := by
  simp only [typed_column_known laid]
  constructor
  · rintro ⟨known, present⟩
    rw [← column_some_iff laid, Option.isSome_iff_exists] at present
    obtain ⟨c, found⟩ := present
    exact ⟨c, found, known⟩
  · rintro ⟨c, found, known⟩
    refine ⟨known, ?_⟩
    rw [← column_some_iff laid, found]
    rfl

end Block

namespace SplitBlock

theorem left_congr (b : Block) {taken others : List ComponentId} (same : ∀ id, id ∈ taken ↔ id ∈ others) :
    left b taken = left b others := by
  refine congrArg (SplitBlock.mk b.entities) (List.map_congr_left fun c _ => ?_)
  rw [remaining, remaining]
  simp only [same]

end SplitBlock

namespace OpenBlock

open Block (Repaints Changes)

def ids (o : OpenBlock) : List ComponentId := o.taken.map fun s => s.type.id

def Outside (b : Block) (taken : List Slice) (i : Nat) : Prop :=
  ∀ s ∈ taken, ∀ row, row < b.entityCount → i < s.piece.place row ∨ s.piece.place row + s.type.size ≤ i

-- What holds of a block as long as it is open: its slices are columns of the block as it was, and
-- nothing but their elements has changed.
structure Opened (b : Block) (o : OpenBlock) : Prop where
  repaints : Repaints b o.block
  split : o.split = .left b o.ids
  columns : ∀ s ∈ o.taken, ∃ c, b.typedColumn? s.type = some c ∧ s.piece = b.pieceOf c
  distinct : o.ids.Nodup
  kept : ∀ i, Outside b o.taken i → o.block.payload.get i = b.payload.get i

variable {registry : Registry} {b : Block} {o : OpenBlock}

theorem ids_append (o : OpenBlock) (block : Block) (split : SplitBlock) (s : Slice) :
    (OpenBlock.mk block split (o.taken ++ [s])).ids = o.ids ++ [s.type.id] := List.map_append

theorem of_block_opened (shaped : b.Shaped registry) :
    ∃ first, ofBlock b = .ok first ∧ first.block = b ∧ first.taken = [] ∧ Opened b first := by
  have split := Block.split_laid shaped.laid (Nat.le_trans shaped.enabled_le shaped.disabled_le)
  refine ⟨⟨b, _, []⟩, by rw [ofBlock, split]; rfl, rfl, rfl, Repaints.refl b, ?_,
    fun s member => absurd member List.not_mem_nil, List.nodup_nil, fun _ _ => rfl⟩
  refine congrArg (SplitBlock.mk b.entities) (List.map_congr_left fun c _ => ?_)
  exact (if_neg List.not_mem_nil).symm

section Opened

variable (opened : Opened b o)

include opened

theorem length_eq : o.length = b.entityCount := by
  rw [length, opened.split, SplitBlock.left, Block.entities, List.length_map, List.length_range]

theorem length_elements (s : Slice) : (o.elements s).length = b.entityCount := by
  rw [elements, List.length_map, List.length_range, length_eq opened]

theorem typed_column_eq (type : ComponentType) : o.block.typedColumn? type = b.typedColumn? type := by
  obtain ⟨payload, _, same⟩ := opened.repaints
  rw [same]
  rfl

theorem occupied_eq (row : Nat) : o.block.isOccupied row = b.isOccupied row := by
  obtain ⟨payload, _, same⟩ := opened.repaints
  rw [same]
  rfl

theorem element_ok {s : Slice} (member : s ∈ o.taken) (row : Nat) (enabled : row < b.entityCount) :
    o.block.component? s.type row = some (o.element s row) := by
  obtain ⟨c, typed, piece⟩ := opened.columns s member
  rw [Block.component?, occupied_eq opened, if_pos (Block.occupied_of_enabled enabled), typed_column_eq opened, typed,
    Option.map_some, element, piece, Block.place_piece]

theorem get_elements {s : Slice} (member : s ∈ o.taken) (row : Nat) :
    (o.elements s)[row]? = if row < b.entityCount then o.block.component? s.type row else none := by
  rw [elements, length_eq opened, List.getElem?_map]
  by_cases enabled : row < b.entityCount
  · rw [if_pos enabled, List.getElem?_range enabled, Option.map_some, element_ok opened member row enabled]
  · rw [if_neg enabled, List.getElem?_eq_none (by rw [List.length_range]; omega), Option.map_none]

theorem taken_iff (laid : b.Laid registry) {type : ComponentType} (grants : b.Grants registry type) :
    type.id ∈ o.ids ↔ type ∈ o.taken.map Slice.type := by
  constructor
  · intro hit
    obtain ⟨s, member, same⟩ := List.mem_map.mp hit
    obtain ⟨c, typed, _⟩ := opened.columns s member
    have known := ((Block.typed_column_known laid s.type c).mp typed).2
    exact List.mem_map.mpr ⟨s, member, Registry.check_unique same grants.known known⟩
  · intro hit
    obtain ⟨s, member, same⟩ := List.mem_map.mp hit
    exact List.mem_map.mpr ⟨s, member, congrArg ComponentType.id same⟩

theorem append_opened {type : ComponentType} {c : Column} (typed : b.typedColumn? type = some c)
    (fresh : type.id ∉ o.ids) :
    Opened b ⟨o.block, .left b (type.id :: o.ids), o.taken ++ [⟨type, b.pieceOf c⟩]⟩ := by
  refine ⟨opened.repaints, ?_, ?_, ?_, fun i outside => opened.kept i fun s member => ?_⟩
  · refine SplitBlock.left_congr b fun id => ?_
    rw [ids_append, List.mem_append, List.mem_singleton, List.mem_cons, or_comm]
  · exact List.forall_mem_append.mpr ⟨opened.columns, List.forall_mem_singleton.mpr ⟨c, typed, rfl⟩⟩
  · rw [ids_append]
    exact opened.distinct.append (List.nodup_singleton _) (List.disjoint_singleton.mpr fresh)
  · exact outside s (List.mem_append_left _ member)

theorem change_beyond (s : Slice) (row : Nat) (beyond : b.entityCount ≤ row) (f : Block.Change) :
    o.change s row f = .error (.positionBeyondEnd row b.entityCount) := by
  have outside : ¬ row < b.entityCount := Nat.not_lt.mpr beyond
  simp [change, length_eq opened, require, outside]

end Opened

inductive Takes (registry : Registry) (b : Block) (o : OpenBlock) (type : ComponentType) : Prop where
  | granted (slice : Slice) (next : OpenBlock) (took : o.take type = .ok (some (slice, next)))
      (grants : b.Grants registry type) (fresh : type ∉ o.taken.map Slice.type) (named : slice.type = type)
      (taken : next.taken = o.taken ++ [slice]) (same : next.block = o.block) (opened : Opened b next)
  | refused (took : o.take type = .ok none)
      (never : b.Grants registry type → type ∈ o.taken.map Slice.type)

section Steps

variable (genuine : registry.Genuine) (shaped : b.Shaped registry) (positive : 0 < b.capacity) (opened : Opened b o)

include genuine shaped opened

include positive in
theorem take_opened (type : ComponentType) : Takes registry b o type := by
  have search := SplitBlock.take_left genuine shaped.laid
    (Nat.le_trans shaped.enabled_le shaped.disabled_le) positive o.ids type
  rw [← opened.split] at search
  by_cases met : type.id ∈ o.ids
  · rw [if_pos met] at search
    exact .refused (by rw [take, search]; rfl) fun grants => (taken_iff opened shaped.laid grants).mp met
  · rw [if_neg met] at search
    cases typed : b.typedColumn? type with
    | none =>
        rw [typed, Option.map_none] at search
        refine .refused (by rw [take, search]; rfl) fun grants => ?_
        obtain ⟨c, found⟩ := (Block.grants_iff shaped.laid type).mp grants
        rw [typed] at found
        contradiction
    | some c =>
        rw [typed, Option.map_some] at search
        have grants := (Block.grants_iff shaped.laid type).mpr ⟨c, typed⟩
        refine .granted ⟨type, b.pieceOf c⟩
          ⟨o.block, .left b (type.id :: o.ids), o.taken ++ [⟨type, b.pieceOf c⟩]⟩ ?_ grants
          (fun hit => met ((taken_iff opened shaped.laid grants).mpr hit)) rfl rfl rfl (append_opened opened typed met)
        simp only [take, search, ok_bind, pure_eq_ok]

theorem change_opened {s : Slice} (member : s ∈ o.taken) (row : Nat) (enabled : row < b.entityCount)
    (f : Block.Change) : ∃ block, o.change s row f = .ok { o with block } ∧ Opened b { o with block } ∧
      Changes o.block block s.type row (s.piece.place row) ((o.element s row).withBytes (f (o.element s row))) := by
  obtain ⟨c, typed, piece⟩ := opened.columns s member
  obtain ⟨listed, size⟩ := Block.typed_size shaped genuine s.type c typed
  have nowShaped := opened.repaints.shaped shaped
  have typedNow := (typed_column_eq opened s.type).trans typed
  obtain ⟨listedNow, _⟩ := Block.typed_size nowShaped genuine s.type c typedNow
  have occupied := (occupied_eq opened row).trans (Block.occupied_of_enabled enabled)
  have place : s.piece.place row = c.span.place row := by rw [piece, Block.place_piece]
  generalize chosen : (o.element s row).withBytes (f (o.element s row)) = value
  have same : value.type = s.type := by rw [← chosen, Component.type_withBytes, element, Block.valueAt]
  have length := value.length_eq.trans ((congrArg ComponentType.size same).trans size)
  have changes := Block.overwrite_changes genuine nowShaped typedNow value occupied same
  have wrote := Block.write_cell_ok nowShaped.laid c listedNow row (nowShaped.occupied_bound occupied)
    value.bytes length
  have written : o.block.writePiece s.piece row value.bytes = o.block.writeCell c row value.bytes := by
    rw [piece]
    rfl
  have inside : decide (row < o.length) = true := by
    rw [length_eq opened]
    exact decide_eq_true enabled
  rw [← place] at changes wrote
  refine ⟨o.block.overwrite (s.piece.place row) value.bytes, ?_, ⟨opened.repaints.trans changes.repaints,
    opened.split, opened.columns, opened.distinct, fun i outside => ?_⟩, changes⟩
  · simp only [change, require_ok _ _ inside, ok_bind, chosen, written, wrote, pure_eq_ok]
  · have apart := outside s member row enabled
    exact (changes.payload i).trans ((if_neg (by omega)).trans (opened.kept i outside))

inductive Operation.Stops (rows : Nat) : Operation → Fault → Prop where
  | change (slice row : Nat) (f : Block.Change) (beyond : rows ≤ row) :
      Stops rows (.change slice row f) (.positionBeyondEnd row rows)

include positive

theorem operate_opened (operation : Operation) :
    Ensures (operation.Stops b.entityCount) (o.operate operation) fun (_, next) =>
      Opened b next ∧ ∀ type, type ∈ next.taken.map Slice.type ↔
        type ∈ o.taken.map Slice.type ∨ operation = .take type ∧ b.Grants registry type := by
  cases operation with
  | take type =>
      rcases take_opened genuine shaped positive opened type with
        ⟨slice, next, took, grants, _, named, taken, _, nextOpened⟩ | ⟨took, never⟩
      · refine ensures_of_eq (by rw [operate, took]; rfl) ⟨nextOpened, fun other => ?_⟩
        rw [taken, List.map_append, List.mem_append, List.map_singleton, List.mem_singleton, named]
        refine or_congr_right ⟨?_, ?_⟩
        · rintro rfl
          exact ⟨rfl, grants⟩
        · rintro ⟨same, _⟩
          exact (Operation.take.inj same).symm
      · refine ensures_of_eq (by rw [operate, took]; rfl) ⟨opened, fun other => ?_⟩
        refine ⟨Or.inl, fun either => either.elim id ?_⟩
        rintro ⟨same, grants⟩
        obtain rfl := Operation.take.inj same
        exact never grants
  | change number row f =>
      have others (type : ComponentType) : ¬ (Operation.change number row f = .take type ∧ b.Grants registry type) :=
        fun both => nomatch both.1
      cases found : o.taken[number]? with
      | none =>
          refine ensures_of_eq (by rw [operate, found]) ⟨opened, fun type => ?_⟩
          simp only [others, or_false]
      | some s =>
          by_cases enabled : row < b.entityCount
          · obtain ⟨block, done, nextOpened, _⟩ :=
              change_opened genuine shaped opened (List.mem_of_getElem? found) row enabled f
            refine ensures_of_eq (by rw [operate, found]; simp only [done]; rfl) ⟨nextOpened, fun type => ?_⟩
            simp only [others, or_false]
          · have stopped := change_beyond opened s row (Nat.le_of_not_lt enabled) f
            rw [operate, found]
            simp only [stopped]
            exact .change number row f (Nat.le_of_not_lt enabled)

theorem operate_all_opened (operations : List Operation) :
    Ensures (fun fault => ∃ operation ∈ operations, operation.Stops b.entityCount fault) (o.operateAll operations)
      fun (_, last) => Opened b last ∧ ∀ type, type ∈ last.taken.map Slice.type ↔
        type ∈ o.taken.map Slice.type ∨ .take type ∈ operations ∧ b.Grants registry type := by
  induction operations generalizing o with
  | nil =>
      refine ⟨opened, fun type => ⟨Or.inl, fun either => either.elim id ?_⟩⟩
      exact fun both => absurd both.1 List.not_mem_nil
  | cons operation rest ih =>
      have step := operate_opened genuine shaped positive opened operation
      rw [operateAll]
      cases done : o.operate operation with
      | error fault =>
          rw [done] at step
          exact ⟨operation, List.mem_cons_self, step⟩
      | ok result =>
          obtain ⟨answer, next⟩ := result
          rw [done] at step
          obtain ⟨nextOpened, first⟩ := step
          rw [ok_bind]
          refine ensures_bind _ (ensures_mono (ih nextOpened) (fun fault ⟨later, member, stops⟩ =>
            ⟨later, List.mem_cons_of_mem operation member, stops⟩) fun _ holds => holds) ?_
          rintro ⟨answers, last⟩ ⟨lastOpened, others⟩
          refine ⟨lastOpened, fun type => ?_⟩
          rw [others, first, List.mem_cons, or_assoc, ← or_and_right, eq_comm]

end Steps

end OpenBlock

end EntityStore
