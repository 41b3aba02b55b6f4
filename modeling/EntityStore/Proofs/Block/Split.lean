import EntityStore.Proofs.Block.Components
import EntityStore.Query

set_option autoImplicit false

namespace EntityStore

namespace Block

open Checked

variable {registry : Registry} {b : Block}

def pieceOf (b : Block) (c : Column) : ColumnPiece := ⟨c.descriptor, c.offset, c.descriptor.size * b.capacity⟩

theorem place_piece (b : Block) (c : Column) (row : Nat) : (b.pieceOf c).place row = c.span.place row := rfl

theorem cut_ok (capacity size : Nat) (columns : List Column) (cursor : Nat)
    (after : ∀ c ∈ columns, cursor ≤ c.offset)
    (inside : ∀ c ∈ columns, c.offset + capacity * c.descriptor.size ≤ size)
    (apart : columns.Pairwise fun c d => c.offset + capacity * c.descriptor.size ≤ d.offset) :
    cut capacity size cursor columns =
      .ok (columns.map fun c => ⟨c.descriptor, c.offset, c.descriptor.size * capacity⟩) := by
  induction columns generalizing cursor with
  | nil => rfl
  | cons c rest ih =>
      have start := after c List.mem_cons_self
      have stop := inside c List.mem_cons_self
      obtain ⟨head, tail⟩ := List.pairwise_cons.mp apart
      rw [Nat.mul_comm] at stop
      have next := ih (c.offset + c.descriptor.size * capacity)
        (fun d member => by rw [Nat.mul_comm]; exact head d member)
        (fun d member => inside d (List.mem_cons_of_mem c member)) tail
      have position : cursor + (c.offset - cursor) = c.offset := by omega
      simp only [cut, sub_ok _ _ start, ok_bind, position, require_ok _ _ (decide_eq_true stop), next,
        pure_eq_ok, List.map_cons]

theorem split_laid (laid : b.Laid registry) (counted : b.entityCount ≤ b.capacity) :
    b.split = .ok ⟨b.entities, b.columns.map b.pieceOf⟩ := by
  obtain ⟨first, others⟩ := List.pairwise_cons.mp laid.apart
  have fits := slots_fit laid
  have room : 0 + Entity.width * b.capacity ≤ b.payload.size := by omega
  have pieces := cut_ok b.capacity b.payload.size b.columns (Entity.width * b.capacity)
    (fun c member => by
      have behind := first c.span (List.mem_map_of_mem member)
      simp only [entitySpan, Nat.zero_add] at behind
      rw [Nat.mul_comm]
      exact behind)
    (fun c member => laid.inside c.span (span_member c member)) (List.pairwise_map.mp others)
  simp only [split, Buffer.check_span_ok _ _ _ room, ok_bind, pieces, read_entities_ok fits counted]
  rfl

theorem split_ok (sound : b.Sound registry) : b.split = .ok ⟨b.entities, b.columns.map b.pieceOf⟩ :=
  split_laid sound.laid (Nat.le_trans sound.enabled_le sound.disabled_le)

end Block

def ColumnPiece.spent (p : ColumnPiece) : ColumnPiece := { p with length := 0 }

namespace SplitBlock

def remaining (b : Block) (taken : List ComponentId) (c : Column) : ColumnPiece :=
  if c.descriptor.id ∈ taken then (b.pieceOf c).spent else b.pieceOf c

def left (b : Block) (taken : List ComponentId) : SplitBlock :=
  ⟨b.entities, b.columns.map (remaining b taken)⟩

theorem remaining_descriptor (b : Block) (taken : List ComponentId) (c : Column) :
    (remaining b taken c).descriptor = c.descriptor := by
  unfold remaining
  split <;> rfl

theorem remaining_cons (b : Block) (taken : List ComponentId) (id : ComponentId) (c : Column) :
    (if c.descriptor.id = id then (remaining b taken c).spent else remaining b taken c) =
      remaining b (id :: taken) c := by
  unfold remaining
  by_cases here : c.descriptor.id = id
  · rw [if_pos here, if_pos (List.mem_cons.mpr (Or.inl here))]
    split <;> rfl
  · simp [here]

theorem take_piece_ok (type : ComponentType) (piece : Column → ColumnPiece)
    (named : ∀ c, (piece c).descriptor = c.descriptor) (columns : List Column)
    (distinct : (columns.map fun c => c.descriptor.id).Nodup) :
    takePiece type (columns.map piece) =
      ((columns.find? fun c => c.descriptor.id = type.id).filter fun c => c.descriptor.is type).bind
        fun c => if (piece c).length = 0 then none else some (piece c, columns.map fun d =>
          if d.descriptor.id = type.id then (piece d).spent else piece d) := by
  induction columns with
  | nil => rfl
  | cons c rest ih =>
      obtain ⟨fresh, tail⟩ := List.nodup_cons.mp distinct
      have later := ih tail
      rw [List.map_cons, takePiece, named]
      by_cases same : c.descriptor.id = type.id
      · have alone : ∀ d ∈ rest, ¬ d.descriptor.id = type.id := fun d member equal =>
          fresh (List.mem_map.mpr ⟨d, member, equal.trans same.symm⟩)
        have unchanged : (rest.map fun d =>
            if d.descriptor.id = type.id then (piece d).spent else piece d) = rest.map piece :=
          List.map_congr_left fun d member => if_neg (alone d member)
        rw [List.find?_cons_of_pos (by simpa using same)]
        by_cases known : c.descriptor.is type = true
        · rw [if_pos ⟨same, known⟩, Option.filter_some, if_pos known, Option.bind_some, List.map_cons,
            unchanged, if_pos same, ColumnPiece.spent, named]
        · have absent : (rest.find? fun c => c.descriptor.id = type.id) = none :=
            List.find?_eq_none.mpr fun d member => by simpa using alone d member
          rw [if_neg fun both => known both.2, Option.filter_some, if_neg known, later, absent]
          rfl
      · rw [if_neg fun both => same both.1, List.find?_cons_of_neg (by simpa using same), later,
          Option.map_bind]
        refine congrArg _ (funext fun d => ?_)
        by_cases taken : (piece d).length = 0
        · simp [taken]
        · simp [taken, same]

theorem piece_rows {registry : Registry} {b : Block} (genuine : registry.Genuine) (laid : b.Laid registry)
    {type : ComponentType} {c : Column} (typed : b.typedColumn? type = some c) :
    (b.pieceOf c).length / type.size = b.capacity := by
  obtain ⟨column, same⟩ := (Block.typed_column_iff type c).mp typed
  have entry := Block.entry_of_column genuine laid c (Block.column_member type.id c column).1
  have size : type.size = c.descriptor.size := same ▸ (Registry.entry_size entry).symm
  rw [Block.pieceOf, size]
  exact Nat.mul_div_cancel_left b.capacity entry.size_pos

section Take

variable {registry : Registry} {b : Block} (genuine : registry.Genuine) (laid : b.Laid registry)
  (counted : b.entityCount ≤ b.capacity) (positive : 0 < b.capacity) (taken : List ComponentId)
  (type : ComponentType)

include genuine laid counted positive

theorem take_left : (left b taken).take type =
    .ok (if type.id ∈ taken then none
      else (b.typedColumn? type).map fun c => (b.pieceOf c, left b (type.id :: taken))) := by
  have distinct : (b.columns.map fun c => c.descriptor.id).Nodup := by
    rw [laid.listed]
    exact Signature.nodup_ids b.signature
  have search := take_piece_ok type (remaining b taken) (remaining_descriptor b taken) b.columns distinct
  have typed : ((b.columns.find? fun c => c.descriptor.id = type.id).filter
    fun c => c.descriptor.is type) = b.typedColumn? type := rfl
  simp only [typed, remaining_cons] at search
  unfold take
  cases found : b.typedColumn? type with
  | none =>
      rw [found] at search
      simp only [left, search, Option.bind_none, Option.map_none, ite_self]
  | some c =>
      obtain ⟨column, same⟩ := (Block.typed_column_iff type c).mp found
      obtain ⟨member, id⟩ := Block.column_member type.id c column
      rw [found, Option.bind_some] at search
      by_cases spent : type.id ∈ taken
      · have empty : (remaining b taken c).length = 0 := by
          rw [remaining, if_pos (id ▸ spent)]
          rfl
        rw [if_pos empty] at search
        simp only [left, search, if_pos spent]
      · have entry := Block.entry_of_column genuine laid c member
        have whole : remaining b taken c = b.pieceOf c := if_neg (id ▸ spent)
        have long : ¬ (b.pieceOf c).length = 0 := Nat.ne_of_gt (Nat.mul_pos entry.size_pos positive)
        have cast := Block.cast_run_ok genuine laid c member .write b.capacity
        rw [same] at cast
        rw [whole, if_neg long] at search
        have rows := piece_rows genuine laid found
        have room : decide (b.entities.length ≤ b.capacity) = true := by
          rw [Block.entities, List.length_map, List.length_range]
          exact decide_eq_true counted
        have kind : type.checkCast (.run .write) (b.pieceOf c).start (b.pieceOf c).length = .ok () := cast
        simp only [left, search, if_neg spent, Option.map_some, kind, rows, Checked.ok_bind,
          Checked.require_ok _ _ room, Checked.pure_eq_ok]

theorem take_ok (fresh : type.id ∉ taken) : (left b taken).take type = .ok ((b.typedColumn? type).map fun c =>
    (b.pieceOf c, left b (type.id :: taken))) := by
  rw [take_left genuine laid counted positive, if_neg fresh]

end Take

end SplitBlock

end EntityStore
