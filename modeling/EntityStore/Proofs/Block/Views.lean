import EntityStore.Proofs.Block.Opened

set_option autoImplicit false

namespace EntityStore

open Checked

namespace OpenBlock

open Block (Repaints)

variable {registry : Registry} {b : Block} {o next : OpenBlock}

theorem write_piece_repaints {block : Block} {piece : ColumnPiece} {row : Nat} {bytes : List UInt8}
    (wrote : b.writePiece piece row bytes = .ok block) : Repaints b block := by
  obtain ⟨fitted, _, wrote⟩ := bind_ok_iff.mp wrote
  obtain ⟨payload, spliced, same⟩ := bind_ok_iff.mp wrote
  exact ⟨payload, Block.splice_size spliced, (Except.ok.inj same).symm⟩

theorem change_repaints {s : Slice} {row : Nat} {f : Block.Change} (changed : o.change s row f = .ok next) :
    Repaints o.block next.block := by
  obtain ⟨_, _, changed⟩ := bind_ok_iff.mp changed
  obtain ⟨block, wrote, same⟩ := bind_ok_iff.mp changed
  exact Except.ok.inj same ▸ write_piece_repaints wrote

theorem take_block {type : ComponentType} {slice : Slice} (took : o.take type = .ok (some (slice, next))) :
    next.block = o.block := by
  obtain ⟨result, _, took⟩ := bind_ok_iff.mp took
  cases result with
  | none => exact nomatch Except.ok.inj took
  | some result =>
      have same := took
      obtain ⟨_, rfl⟩ := Prod.mk.inj (Option.some.inj (Except.ok.inj same))
      rfl

theorem operate_repaints {operation : Operation} {answer : Answer} (done : o.operate operation = .ok (answer, next)) :
    Repaints o.block next.block := by
  cases operation with
  | take type =>
      obtain ⟨result, took, done⟩ := bind_ok_iff.mp done
      cases result with
      | none =>
          obtain ⟨_, rfl⟩ := Prod.mk.inj (Except.ok.inj done)
          exact Repaints.refl o.block
      | some result =>
          obtain ⟨_, rfl⟩ := Prod.mk.inj (Except.ok.inj done)
          rw [take_block took]
          exact Repaints.refl o.block
  | change number row f =>
      rw [operate] at done
      cases found : o.taken[number]? with
      | none =>
          rw [found] at done
          obtain ⟨_, rfl⟩ := Prod.mk.inj (Except.ok.inj done)
          exact Repaints.refl o.block
      | some s =>
          rw [found] at done
          obtain ⟨changed, step, done⟩ := bind_ok_iff.mp done
          obtain ⟨_, rfl⟩ := Prod.mk.inj (Except.ok.inj done)
          exact change_repaints step

theorem operate_all_repaints {operations : List Operation} {answers : List Answer}
    (done : o.operateAll operations = .ok (answers, next)) : Repaints o.block next.block := by
  induction operations generalizing o answers with
  | nil =>
      obtain ⟨_, rfl⟩ := Prod.mk.inj (Except.ok.inj done)
      exact Repaints.refl o.block
  | cons operation rest ih =>
      obtain ⟨⟨answer, middle⟩, first, done⟩ := bind_ok_iff.mp done
      obtain ⟨⟨later, last⟩, others, done⟩ := bind_ok_iff.mp done
      obtain ⟨_, rfl⟩ := Prod.mk.inj (Except.ok.inj done)
      exact (operate_repaints first).trans (ih others)

end OpenBlock

namespace Block

variable {registry : Registry} {b : Block}

inductive Reached (registry : Registry) : Block → Prop where
  | created {signature : Signature} {capacity blockBytes : Nat} {layout : Layout} {payload : Buffer} {b : Block}
      (generated : Layout.generate signature registry capacity blockBytes = .ok (.ok layout))
      (made : create layout payload = .ok b) : Reached registry b
  | operated {b next : Block} {operation : Operation} {answer : Answer} (reached : Reached registry b)
      (done : b.operate operation = .ok (answer, next)) : Reached registry next
  | copied {b source : Block} (row sourceRow : Nat) (reached : Reached registry b)
      (other : Reached registry source) : Reached registry (b.copySharedFrom row source sourceRow).state
  | opened {b : Block} {first last : OpenBlock} {operations : List OpenBlock.Operation}
      {answers : List OpenBlock.Answer} (reached : Reached registry b) (opened : OpenBlock.ofBlock b = .ok first)
      (done : first.operateAll operations = .ok (answers, last)) : Reached registry last.block

theorem copied_repaints (row : Nat) (source : Block) (sourceRow : Nat) (columns : List Column) (b : Block) :
    Repaints b (Progress.run (copyColumn row source sourceRow) b columns).state := by
  induction columns generalizing b with
  | nil => exact Repaints.refl b
  | cons c rest ih =>
      rw [Progress.run]
      cases first : copyColumn row source sourceRow b c with
      | error fault => exact Repaints.refl b
      | ok middle => exact (copy_column_repaints first).trans (ih middle)

theorem Reached.shaped (genuine : registry.Genuine) (reached : Reached registry b) : b.Shaped registry := by
  induction reached with
  | @created signature capacity blockBytes layout payload b generated made =>
      by_cases small : payload.size < layout.totalBytes
      · simp [create, small] at made
      · have fitted := Layout.generate_room registry signature capacity blockBytes layout generated payload.size
          (Nat.le_of_not_lt small)
        obtain ⟨rfl, rfl, _, laid⟩ :=
          Layout.generate_laid registry genuine signature capacity payload.size layout fitted
        rw [create, if_neg small] at made
        obtain rfl := Except.ok.inj made
        exact ⟨laid, Nat.zero_le _, Nat.le_refl _⟩
  | @operated b next operation answer _ done ih =>
      have step := operate_shaped ih genuine operation
      rw [done] at step
      exact step.1
  | @copied b source row sourceRow _ _ ih _ =>
      exact (copied_repaints row source sourceRow b.columns b).shaped ih
  | @opened b first last operations answers _ opened done ih =>
      obtain ⟨split, _, same⟩ := bind_ok_iff.mp opened
      obtain rfl := Except.ok.inj same
      exact (OpenBlock.operate_all_repaints done).shaped ih

theorem get_entities (b : Block) (row : Nat) :
    b.entities[row]? = if b.isEnabledRow row then b.entityAt? row else none := by
  rw [entities, List.getElem?_map, isEnabledRow]
  by_cases enabled : row < b.entityCount
  · rw [List.getElem?_range enabled, Option.map_some, if_pos (decide_eq_true enabled), entityAt?,
      if_pos (occupied_of_enabled enabled)]
  · rw [List.getElem?_eq_none (by rw [List.length_range]; omega), Option.map_none, if_neg (by simpa using enabled)]

end Block

namespace OpenBlock

open Block (Repaints Changes)

variable {registry : Registry} {b : Block} {o : OpenBlock}

structure Offers (registry : Registry) (b : Block) (o : OpenBlock) (type : ComponentType) : Prop where
  granted : b.Grants registry type → type ∉ o.taken.map Slice.type →
    ∃ slice next elements, o.operate (.take type) = .ok (.taken (some elements), next) ∧
      next.block = o.block ∧ next.taken = o.taken ++ [slice] ∧ slice.type = type ∧
      elements.length = b.entityCount ∧
      ∀ row, row < b.entityCount → elements[row]? = o.block.component? type row
  refused : ¬ (b.Grants registry type ∧ type ∉ o.taken.map Slice.type) →
    o.operate (.take type) = .ok (.taken none, o)

structure Accepts (b : Block) (o : OpenBlock) (number : Nat) (s : Slice) (row : Nat) (f : Block.Change) : Prop where
  inside : row < b.entityCount → ∃ old block, o.block.component? s.type row = some old ∧
    o.operate (.change number row f) = .ok (.changed true, { o with block }) ∧
    Changes o.block block s.type row (s.piece.place row) (old.withBytes (f old))
  beyond : b.entityCount ≤ row →
    o.operate (.change number row f) = .error (.positionBeyondEnd row b.entityCount)

-- What a user sees of an open block after some operations.
structure Views (registry : Registry) (b : Block) (operations : List Operation) (o : OpenBlock) : Prop where
  repaints : Repaints b o.block
  entities : o.split.entities = b.entities
  handles : ∀ row, o.block.entityAt? row = b.entityAt? row
  reads : ∀ access type row, o.block.readComponent access type row = .ok (o.block.component? type row)
  untouched : ∀ i, Outside b o.taken i → o.block.payload.get i = b.payload.get i
  taken : ∀ type, type ∈ o.taken.map Slice.type ↔ .take type ∈ operations ∧ b.Grants registry type
  once : (o.taken.map Slice.type).Nodup
  elements : ∀ s ∈ o.taken, (o.elements s).length = b.entityCount ∧
    ∀ row, row < b.entityCount → (o.elements s)[row]? = o.block.component? s.type row
  inside : ∀ s ∈ o.taken, Entity.width * b.capacity ≤ s.piece.start ∧
    s.piece.start + s.piece.length ≤ b.payload.size ∧
    ∀ row, row < b.entityCount → s.piece.place row = s.piece.start + row * s.type.size ∧
      s.piece.place row + s.type.size ≤ s.piece.start + s.piece.length
  apart : o.taken.Pairwise fun s t =>
    s.piece.start + s.piece.length ≤ t.piece.start ∨ t.piece.start + t.piece.length ≤ s.piece.start
  takes : ∀ type, Offers registry b o type
  changes : ∀ number s, o.taken[number]? = some s → ∀ row f, Accepts b o number s row f

section Opened

variable (genuine : registry.Genuine) (shaped : b.Shaped registry) (positive : 0 < b.capacity) (opened : Opened b o)

include genuine shaped opened

theorem piece_ok {s : Slice} (member : s ∈ o.taken) : ∃ c ∈ b.columns, b.typedColumn? s.type = some c ∧
    s.piece.start = c.span.offset ∧ s.piece.length = b.capacity * c.span.size ∧ s.type.size = c.span.size ∧
    ∀ row, s.piece.place row = c.span.place row := by
  obtain ⟨c, typed, piece⟩ := opened.columns s member
  obtain ⟨listed, size⟩ := Block.typed_size shaped genuine s.type c typed
  refine ⟨c, listed, typed, ?_, ?_, size, fun row => ?_⟩
  · rw [piece]
    rfl
  · rw [piece, Nat.mul_comm]
    rfl
  · rw [piece, Block.place_piece]

theorem piece_inside {s : Slice} (member : s ∈ o.taken) : Entity.width * b.capacity ≤ s.piece.start ∧
    s.piece.start + s.piece.length ≤ b.payload.size ∧
    ∀ row, row < b.entityCount → s.piece.place row = s.piece.start + row * s.type.size ∧
      s.piece.place row + s.type.size ≤ s.piece.start + s.piece.length := by
  obtain ⟨c, listed, _, start, length, size, place⟩ := piece_ok genuine shaped opened member
  have handles := (List.pairwise_cons.mp shaped.laid.apart).1 c.span (List.mem_map_of_mem listed)
  have ordered := shaped.enabled_le
  have limit := shaped.disabled_le
  rw [Block.entitySpan, Nat.zero_add, Nat.mul_comm] at handles
  rw [start, length, size]
  refine ⟨handles, shaped.laid.inside c.span (Block.span_member c listed), fun row enabled => ?_⟩
  rw [place]
  exact ⟨rfl, Span.place_end c.span row b.capacity (by omega)⟩

theorem pieces_apart : o.taken.Pairwise fun s t =>
    s.piece.start + s.piece.length ≤ t.piece.start ∨ t.piece.start + t.piece.length ≤ s.piece.start := by
  refine (List.pairwise_map.mp opened.distinct).imp_of_mem fun {s t} member memberToo different => ?_
  obtain ⟨c, listed, typed, start, length, _⟩ := piece_ok genuine shaped opened member
  obtain ⟨d, listedToo, typedToo, startToo, lengthToo, _⟩ := piece_ok genuine shaped opened memberToo
  have columns : c ≠ d := by
    rintro rfl
    have same := ((Block.typed_column_iff s.type c).mp typed).2
    rw [((Block.typed_column_iff t.type c).mp typedToo).2] at same
    exact different (congrArg ComponentType.id same).symm
  rw [start, length, startToo, lengthToo]
  exact Block.columns_apart shaped.laid c d listed listedToo columns

theorem handles_kept (row : Nat) : o.block.entityAt? row = b.entityAt? row := by
  rw [Block.entityAt?, Block.entityAt?, occupied_eq opened]
  by_cases occupied : b.isOccupied row = true
  · have inRange := shaped.occupied_bound occupied
    have stop := Span.place_end Block.entitySpan row b.capacity inRange
    have kept : o.block.entitySlot row = b.entitySlot row := by
      refine congrArg Entity.ofBytes (Buffer.read_congr _ _ _ _ _ fun k inCell => opened.kept _ ?_)
      intro s member other _
      obtain ⟨before, _, _⟩ := piece_inside genuine shaped opened member
      have later : s.piece.start ≤ s.piece.place other := Nat.le_add_right _ _
      have total : Block.entitySpan.offset + b.capacity * Block.entitySpan.size = Entity.width * b.capacity := by
        rw [Block.entitySpan, Nat.zero_add, Nat.mul_comm]
      omega
    rw [if_pos occupied, if_pos occupied, kept]
  · rw [if_neg occupied, if_neg occupied]

theorem accepts_ok {number : Nat} {s : Slice} (found : o.taken[number]? = some s) (row : Nat) (f : Block.Change) :
    Accepts b o number s row f := by
  have member := List.mem_of_getElem? found
  refine ⟨fun enabled => ?_, fun beyond => ?_⟩
  · obtain ⟨block, changed, _, changes⟩ := change_opened genuine shaped opened member row enabled f
    refine ⟨o.element s row, block, element_ok opened member row enabled, ?_, changes⟩
    simp only [operate, found, changed, ok_bind, pure_eq_ok]
  · simp only [operate, found, change_beyond opened s row beyond f, error_bind]

include positive

theorem offers_ok (type : ComponentType) : Offers registry b o type := by
  rcases take_opened genuine shaped positive opened type with
    ⟨slice, next, took, grants, fresh, named, taken, same, nextOpened⟩ | ⟨took, never⟩
  · refine ⟨fun _ _ => ?_, fun not => absurd ⟨grants, fresh⟩ not⟩
    have member : slice ∈ next.taken := by
      rw [taken]
      exact List.mem_append_right _ List.mem_cons_self
    refine ⟨slice, next, next.elements slice, by simp only [operate, took, ok_bind, pure_eq_ok], same, taken, named,
      length_elements nextOpened slice, fun row enabled => ?_⟩
    rw [get_elements nextOpened member, if_pos enabled, named, same]
  · refine ⟨fun grants fresh => absurd (never grants) fresh, fun _ => ?_⟩
    simp only [operate, took, ok_bind, pure_eq_ok]

theorem views_ok {operations : List Operation} (taken : ∀ type, type ∈ o.taken.map Slice.type ↔
    .take type ∈ operations ∧ b.Grants registry type) : Views registry b operations o where
  repaints := opened.repaints
  entities := by
    rw [opened.split]
    rfl
  handles := handles_kept genuine shaped opened
  reads access type := Block.read_component_ok genuine (opened.repaints.shaped shaped) type access
  untouched := opened.kept
  taken := taken
  once := by
    refine List.Nodup.of_map ComponentType.id ?_
    rw [List.map_map]
    exact opened.distinct
  elements s member := by
    refine ⟨length_elements opened s, fun row enabled => ?_⟩
    rw [get_elements opened member, if_pos enabled]
  inside _ member := piece_inside genuine shaped opened member
  apart := pieces_apart genuine shaped opened
  takes := offers_ok genuine shaped positive opened
  changes _ _ found := accepts_ok genuine shaped opened found

end Opened

/-- Columns that are written side by side are the columns that are read and written by row. A block that was
made for a generated layout, with gaps between the columns or not, can be opened whatever its contents are, and
its entities are those of the enabled rows. While it is open, a change stops only at an element that there is
not. The column of a type is given once, and only if the type is the registered one and the block has it; taking
it again or taking another type gives nothing and leaves everything as it is. A slice has one element for each
enabled row, the component of that row. Slices are apart. Changing an element overwrites this component, as
assigning it by row does, and no other byte. -/
theorem columns_side_by_side (genuine : registry.Genuine) (reached : Block.Reached registry b)
    (positive : 0 < b.capacity) :
    ∃ first, ofBlock b = .ok first ∧ first.block = b ∧ first.taken = [] ∧
      (∀ row, first.split.entities[row]? = if b.isEnabledRow row then b.entityAt? row else none) ∧
      ∀ operations, Ensures (fun fault => ∃ operation ∈ operations, operation.Stops b.entityCount fault)
        (first.operateAll operations) fun (_, last) => Views registry b operations last := by
  have shaped := reached.shaped genuine
  obtain ⟨first, opens, same, none, opened⟩ := of_block_opened shaped
  refine ⟨first, opens, same, none, fun row => ?_, fun operations => ?_⟩
  · rw [opened.split]
    exact Block.get_entities b row
  · refine ensures_mono (operate_all_opened genuine shaped positive opened operations) (fun _ stopped => stopped) ?_
    rintro ⟨answers, last⟩ ⟨lastOpened, taken⟩
    refine views_ok genuine shaped positive lastOpened fun type => ?_
    rw [taken, none, List.map_nil]
    simp

def flag : ComponentType where
  tag := 7
  id := ComponentType.transform.id
  name := "Flag"
  shape := .byte
  align := 1
  initial := [0]
  ownsResource := false
  align_pos := by decide
  align_dvd_size := by decide
  initial_length := by decide

def stamp : ComponentType where
  tag := 8
  id := ComponentType.worldTransform.id
  name := "Stamp"
  shape := .long
  align := ComponentType.child.align
  initial := Bytes.ofNat 8 0
  ownsResource := false
  align_pos := ComponentType.child.align_pos
  align_dvd_size := by decide
  initial_length := by decide

def flagsAndStamps : Registry := ⟨[.ofType flag true, .ofType stamp true]⟩

def gappedLayout : Layout :=
  ⟨.ofList [flag.id, stamp.id], 3, [⟨24, .ofType flag true⟩, ⟨32, .ofType stamp true⟩], 56⟩

def gappedHistory : List Operation :=
  [.take stamp, .take flag, .take stamp, .take .light, .change 0 1 fun _ => [1, 2, 3, 4, 5, 6, 7, 8],
    .change 1 0 fun _ => [9]]

theorem columns_side_by_side_gap : flagsAndStamps.Genuine ∧ ∃ b, Block.Reached flagsAndStamps b ∧ 0 < b.capacity ∧
    ∃ first answers last, ofBlock b = .ok first ∧ first.operateAll gappedHistory = .ok (answers, last) ∧
      Views flagsAndStamps b gappedHistory last ∧ [0, 1].map (last.block.bytesAt? flag.id) = [some [9], some [0]] ∧
      last.block.bytesAt? stamp.id 1 = some [1, 2, 3, 4, 5, 6, 7, 8] := by
  have one := @Registry.Genuine.insert _ ⟨[.ofType flag true]⟩ flag true .empty rfl
  have genuine := @Registry.Genuine.insert _ flagsAndStamps stamp true one rfl
  obtain ⟨empty, half, b, first, answers, last, pushed, again, made, once, twice, rows, opens, ran, values⟩ :
      ∃ empty half b first answers last pushed again, Block.create gappedLayout (.zeroed 64) = .ok empty ∧
        empty.operate (.push ⟨1, 0⟩) = .ok (pushed, half) ∧ half.operate (.push ⟨2, 0⟩) = .ok (again, b) ∧
        b.capacity = 3 ∧ ofBlock b = .ok first ∧ first.operateAll gappedHistory = .ok (answers, last) ∧
        [0, 1].map (last.block.bytesAt? flag.id) = [some [9], some [0]] ∧
        last.block.bytesAt? stamp.id 1 = some [1, 2, 3, 4, 5, 6, 7, 8] :=
    ⟨_, _, _, _, _, _, _, _, rfl, rfl, rfl, rfl, rfl, rfl, rfl, rfl⟩
  have generated : Layout.generate (.ofList [flag.id, stamp.id]) flagsAndStamps 3 64 = .ok (.ok gappedLayout) := by
    decide
  have reached := ((Block.Reached.created generated made).operated once).operated twice
  have positive : 0 < b.capacity := by rw [rows]; decide
  obtain ⟨opened, same, _, _, _, runs⟩ := columns_side_by_side genuine reached positive
  obtain rfl := Except.ok.inj (opens.symm.trans same)
  have run := runs gappedHistory
  rw [ran] at run
  exact ⟨genuine, b, reached, positive, first, answers, last, opens, ran, run, values⟩

end OpenBlock

end EntityStore
