import EntityStore.Proofs.Block.Contents
import EntityStore.Proofs.Layout
import Mathlib.Data.List.Pairwise

set_option autoImplicit false

namespace EntityStore

namespace Span

def Apart (capacity : Nat) (s t : Span) : Prop :=
  s.offset + capacity * s.size ≤ t.offset ∨ t.offset + capacity * t.size ≤ s.offset

instance (capacity : Nat) : Std.Symm (Apart capacity) := ⟨fun _ _ => Or.symm⟩

theorem place_end (s : Span) (row capacity : Nat) (inRange : row < capacity) :
    s.place row + s.size ≤ s.offset + capacity * s.size := by
  have rows : (row + 1) * s.size ≤ capacity * s.size := Nat.mul_le_mul_right s.size inRange
  rw [Nat.succ_mul] at rows
  unfold place
  omega

theorem place_rows_apart (s : Span) (p q : Nat) (different : p ≠ q) :
    s.place p + s.size ≤ s.place q ∨ s.place q + s.size ≤ s.place p := by
  rcases Nat.lt_or_gt_of_ne different with before | after
  · have bound := Span.place_end s p q before
    left
    simpa [place] using bound
  · have bound := Span.place_end s q p after
    right
    simpa [place] using bound

theorem place_spans_apart (s t : Span) (capacity p q : Nat) (inRange : p < capacity)
    (apart : s.offset + capacity * s.size ≤ t.offset) : s.place p + s.size ≤ t.place q := by
  have bound := place_end s p capacity inRange
  have start : t.offset ≤ t.place q := Nat.le_add_right _ _
  omega

theorem apart_places (s t : Span) (capacity p q : Nat) (pInRange : p < capacity)
    (qInRange : q < capacity) (apart : Apart capacity s t) :
    s.place p + s.size ≤ t.place q ∨ t.place q + t.size ≤ s.place p := by
  rcases apart with before | after
  · exact Or.inl (place_spans_apart s t capacity p q pInRange before)
  · exact Or.inr (place_spans_apart t s capacity q p qInRange after)

end Span

namespace Block

open Checked

def cellsAt (b : Block) (row : Nat) : List (List UInt8) :=
  b.spans.map fun s => b.payload.read (s.place row) s.size

def blank (b : Block) : List (List UInt8) := b.spans.map fun s => List.replicate s.size 0

def Fit (b : Block) (cells : List (List UInt8)) : Prop :=
  cells.map List.length = b.spans.map Span.size

def Padding (b : Block) (i : Nat) : Prop :=
  ∀ s ∈ b.spans, ∀ row, row < b.capacity → i < s.place row ∨ s.place row + s.size ≤ i

abbrev Laid (registry : Registry) (b : Block) : Prop :=
  Layout.Laid registry b.signature b.capacity b.payload.size b.columns

structure Framed (b next : Block) : Prop where
  signature : next.signature = b.signature
  capacity : next.capacity = b.capacity
  columns : next.columns = b.columns
  size : next.payload.size = b.payload.size
  padding : ∀ i, b.Padding i → next.payload.get i = b.payload.get i

structure Becomes (b next : Block) (rows : Nat → List (List UInt8)) : Prop extends
    Framed b next where
  entityCount : next.entityCount = b.entityCount
  disabledStart : next.disabledStart = b.disabledStart
  rows : ∀ row, row < b.capacity → next.cellsAt row = rows row

theorem cells_fit (b : Block) (row : Nat) : b.Fit (b.cellsAt row) := by
  simp [Fit, cellsAt, Function.comp_def]

theorem blank_fit (b : Block) : b.Fit b.blank := by
  simp [Fit, blank, Function.comp_def]

namespace Framed

variable {b next last : Block}

theorem refl (b : Block) : Framed b b := ⟨rfl, rfl, rfl, rfl, fun _ _ => rfl⟩

theorem spans (frame : Framed b next) : next.spans = b.spans := by
  unfold Block.spans
  rw [frame.columns]

theorem blank (frame : Framed b next) : next.blank = b.blank := by
  unfold Block.blank
  rw [frame.spans]

theorem fit (frame : Framed b next) (cells : List (List UInt8)) : next.Fit cells ↔ b.Fit cells := by
  unfold Fit
  rw [frame.spans]

theorem padded (frame : Framed b next) (i : Nat) : next.Padding i ↔ b.Padding i := by
  unfold Padding
  rw [frame.spans, frame.capacity]

theorem trans (first : Framed b next) (second : Framed next last) : Framed b last :=
  ⟨second.signature.trans first.signature, second.capacity.trans first.capacity,
    second.columns.trans first.columns, second.size.trans first.size, fun i outside =>
      (second.padding i ((first.padded i).mpr outside)).trans (first.padding i outside)⟩

theorem laid {registry : Registry} (frame : Framed b next) (laid : b.Laid registry) :
    next.Laid registry := by
  unfold Laid
  rw [frame.signature, frame.capacity, frame.size, frame.columns]
  exact laid

theorem column (frame : Framed b next) (id : ComponentId) : next.column? id = b.column? id := by
  unfold column?
  rw [frame.columns]

end Framed

namespace Becomes

variable {b next last : Block} {rows others : Nat → List (List UInt8)}

theorem trans (first : Becomes b next rows) (second : Becomes next last others)
    (composed : Nat → List (List UInt8))
    (same : ∀ row, row < b.capacity → others row = composed row) : Becomes b last composed :=
  { first.toFramed.trans second.toFramed with
    entityCount := second.entityCount.trans first.entityCount
    disabledStart := second.disabledStart.trans first.disabledStart
    rows := fun row inRange =>
      (second.rows row (first.capacity ▸ inRange)).trans (same row inRange) }

end Becomes

-- Spans are written from left to right, and each is apart from those still to come, so what was
-- written stays.
theorem write_cells_ok (capacity row : Nat) (inRange : row < capacity) (spans : List Span)
    (cells : List (List UInt8)) (payload : Buffer)
    (inside : ∀ s ∈ spans, s.offset + capacity * s.size ≤ payload.size)
    (apart : spans.Pairwise fun s t => s.offset + capacity * s.size ≤ t.offset)
    (lengths : cells.map List.length = spans.map Span.size) :
    ∃ next, writeCells row payload (spans.zip cells) = .ok next ∧ next.size = payload.size ∧
      (spans.map fun s => next.read (s.place row) s.size) = cells ∧
      ∀ i, (∀ s ∈ spans, i < s.place row ∨ s.place row + s.size ≤ i) →
        next.get i = payload.get i := by
  induction spans generalizing cells payload with
  | nil =>
      have none : cells = [] := List.map_eq_nil_iff.mp lengths
      subst none
      exact ⟨payload, rfl, rfl, rfl, fun _ _ => rfl⟩
  | cons s rest ih =>
      cases cells with
      | nil => simp at lengths
      | cons cell others =>
          obtain ⟨length, lengths⟩ := List.cons.inj lengths
          obtain ⟨later, apart⟩ := List.pairwise_cons.mp apart
          have bound : s.place row + cell.length ≤ payload.size := by
            have here := inside s List.mem_cons_self
            have stop := Span.place_end s row capacity inRange
            omega
          -- The rest is written into the buffer that already has this cell, so the cell has to survive it.
          obtain ⟨next, done, size, written, kept⟩ := ih others (payload.write (s.place row) cell)
            (fun t member => by
              rw [Buffer.size_write]
              exact inside t (List.mem_cons_of_mem s member)) apart lengths
          refine ⟨next, ?_, size.trans (Buffer.size_write _ _ _), ?_, ?_⟩
          · rw [List.zip_cons_cons, writeCells, Buffer.splice_ok payload _ cell bound]
            exact done
          · rw [List.map_cons, written]
            have head : next.read (s.place row) s.size = cell := by
              rw [← length]
              refine Eq.trans ?_ (Buffer.read_write_same payload (s.place row) cell bound)
              apply Buffer.read_congr
              intro k inCell
              apply kept
              intro t member
              have before := Span.place_spans_apart s t capacity row row inRange (later t member)
              omega
            rw [head]
          · intro i outside
            rw [kept i fun t member => outside t (List.mem_cons_of_mem s member),
              Buffer.get_write, if_neg]
            have here := outside s List.mem_cons_self
            omega

variable {registry : Registry} {b : Block}

theorem read_row_ok (laid : b.Laid registry) (row : Nat) (inRange : row < b.capacity) :
    b.readRow row = .ok (b.cellsAt row) := by
  apply mapM_ok
  intro s member
  apply Buffer.slice_ok
  have here := laid.inside s member
  have stop := Span.place_end s row b.capacity inRange
  omega

theorem places_apart (laid : b.Laid registry) (s t : Span) (sMember : s ∈ b.spans)
    (tMember : t ∈ b.spans) (p q : Nat) (pInRange : p < b.capacity) (qInRange : q < b.capacity)
    (different : p ≠ q) :
    s.place p + s.size ≤ t.place q ∨ t.place q + t.size ≤ s.place p := by
  by_cases same : s = t
  · subst same
    exact Span.place_rows_apart s p q different
  · have either : b.spans.Pairwise (Span.Apart b.capacity) :=
      laid.apart.imp fun before => Or.inl before
    exact Span.apart_places s t b.capacity p q pInRange qInRange (either.forall sMember tMember same)

theorem write_row_ok (laid : b.Laid registry) (row : Nat) (inRange : row < b.capacity)
    (cells : List (List UInt8)) (fit : b.Fit cells) :
    ∃ next, b.writeRow row cells = .ok next ∧
      Becomes b next fun q => if q = row then cells else b.cellsAt q := by
  obtain ⟨payload, done, size, written, kept⟩ := write_cells_ok b.capacity row inRange b.spans cells
    b.payload laid.inside laid.apart fit
  refine ⟨{ b with payload }, ?_, ⟨⟨rfl, rfl, rfl, size, fun i outside => ?_⟩, rfl, rfl, ?_⟩⟩
  · rw [writeRow, done]
    rfl
  · exact kept i fun s member => outside s member row inRange
  · intro q qInRange
    by_cases here : q = row
    · subst here
      rw [if_pos rfl]
      exact written
    · rw [if_neg here]
      apply List.map_congr_left
      intro s member
      apply Buffer.read_congr
      intro k inCell
      apply kept
      intro t tMember
      have apart := places_apart laid s t member tMember q row qInRange inRange here
      omega

theorem copy_row_ok (laid : b.Laid registry) (source target : Nat) (fromRange : source < b.capacity)
    (inRange : target < b.capacity) :
    ∃ next, b.copyRow source target = .ok next ∧
      Becomes b next fun q => if q = target then b.cellsAt source else b.cellsAt q := by
  rw [copyRow, read_row_ok laid source fromRange]
  exact write_row_ok laid target inRange _ (cells_fit b source)

theorem zero_row_ok (laid : b.Laid registry) (row : Nat) (inRange : row < b.capacity) :
    ∃ next, b.zeroRow row = .ok next ∧
      Becomes b next fun q => if q = row then b.blank else b.cellsAt q :=
  write_row_ok laid row inRange _ (blank_fit b)

theorem swap_rows_ok (laid : b.Laid registry) (first second : Nat) (firstRange : first < b.capacity)
    (secondRange : second < b.capacity) :
    ∃ next, b.swapRows first second = .ok next ∧
      Becomes b next fun q =>
        if q = second then b.cellsAt first
        else if q = first then b.cellsAt second
        else b.cellsAt q := by
  obtain ⟨middle, wrote, half⟩ :=
    write_row_ok laid first firstRange _ (cells_fit b second)
  obtain ⟨next, done, whole⟩ := write_row_ok (half.laid laid) second
    (half.capacity ▸ secondRange) (b.cellsAt first) ((half.fit _).mpr (cells_fit b first))
  refine ⟨next, ?_, half.trans whole _ fun q inRange => ?_⟩
  · simp only [swapRows, read_row_ok laid first firstRange, read_row_ok laid second secondRange,
      ok_bind, wrote, done]
  · rw [half.rows q inRange]

theorem move_row_ok (laid : b.Laid registry) (source target : Nat) (fromRange : source < b.capacity)
    (inRange : target < b.capacity) :
    ∃ next, b.moveRow source target = .ok next ∧
      Becomes b next fun q =>
        if q = target then b.cellsAt source
        else if q = source then b.blank
        else b.cellsAt q := by
  by_cases same : target = source
  · subst same
    refine ⟨b, by rw [moveRow, if_pos rfl], Framed.refl b, rfl, rfl, fun q _ => ?_⟩
    by_cases here : q = target
    · rw [if_pos here, here]
    · rw [if_neg here, if_neg here]
  · obtain ⟨middle, copied, half⟩ := copy_row_ok laid source target fromRange inRange
    obtain ⟨next, zeroed, whole⟩ :=
      zero_row_ok (half.laid laid) source (half.capacity ▸ fromRange)
    refine ⟨next, ?_, half.trans whole _ fun q qInRange => ?_⟩
    · simp only [moveRow, if_neg same, copied, ok_bind, zeroed]
    · rw [half.rows q qInRange, half.blank]
      by_cases here : q = source
      · rw [if_pos here, if_neg (here ▸ Ne.symm same), if_pos here]
      · rw [if_neg here, if_neg here]

theorem entity_slot_eq (b : Block) (row : Nat) :
    b.entitySlot row = .ofBytes ((b.cellsAt row).headD []) := rfl

theorem slots_fit (laid : b.Laid registry) : Entity.width * b.capacity ≤ b.payload.size := by
  have inside := laid.inside entitySpan List.mem_cons_self
  rw [Nat.mul_comm]
  exact Nat.le_trans (Nat.le_add_left _ _) inside

theorem refill_ok (laid : b.Laid registry) (row source : Nat) (inRange : row < b.capacity)
    (fromRange : source < b.capacity) :
    ∃ next, b.refill row source =
        .ok (if row = source then none else some (b.entitySlot source), next) ∧
      Becomes b next fun q =>
        if q = source then b.blank
        else if q = row then b.cellsAt source
        else b.cellsAt q := by
  by_cases same : row = source
  · subst same
    obtain ⟨next, zeroed, whole⟩ := zero_row_ok laid row inRange
    refine ⟨next, by simp [refill, zeroed], { whole with rows := fun q qInRange => ?_ }⟩
    rw [whole.rows q qInRange]
    by_cases here : q = row
    · rw [if_pos here, if_pos here]
    · rw [if_neg here, if_neg here, if_neg here]
  · obtain ⟨middle, copied, half⟩ := copy_row_ok laid source row fromRange inRange
    obtain ⟨next, zeroed, whole⟩ :=
      zero_row_ok (half.laid laid) source (half.capacity ▸ fromRange)
    have moved : middle.readSlot row = .ok (b.entitySlot source) := by
      rw [read_slot_ok (slots_fit (half.laid laid)) (half.capacity ▸ inRange), entity_slot_eq,
        half.rows row inRange, if_pos rfl, entity_slot_eq]
    refine ⟨next, ?_, half.trans whole _ fun q qInRange => ?_⟩
    · simp only [refill, if_neg same, copied, ok_bind, zeroed, moved, pure_eq_ok]
    · rw [half.rows q qInRange, half.blank]

theorem bring_to_ok (laid : b.Laid registry) (row edge : Nat) (inRange : row < b.capacity)
    (edgeRange : edge < b.capacity) :
    ∃ next, b.bringTo row edge =
        .ok (if row = edge then none else some (b.entitySlot edge, row), next) ∧
      Becomes b next fun q =>
        if q = edge then b.cellsAt row
        else if q = row then b.cellsAt edge
        else b.cellsAt q := by
  by_cases same : row = edge
  · subst same
    refine ⟨b, by simp [bringTo], Framed.refl b, rfl, rfl, fun q _ => ?_⟩
    by_cases here : q = row
    · rw [if_pos here, here]
    · rw [if_neg here, if_neg here]
  · obtain ⟨next, swapped, whole⟩ := swap_rows_ok laid row edge inRange edgeRange
    have moved : next.readSlot row = .ok (b.entitySlot edge) := by
      rw [read_slot_ok (slots_fit (whole.laid laid)) (whole.capacity ▸ inRange), entity_slot_eq,
        whole.rows row inRange, if_neg same, if_pos rfl, entity_slot_eq]
    refine ⟨next, ?_, whole⟩
    simp only [bringTo, if_neg same, swapped, ok_bind, moved, pure_eq_ok]

end Block

end EntityStore
