import EntityStore.Proofs.Query
import EntityStore.Proofs.Scene.Hierarchy
import EntityStore.Scene.Queries

set_option autoImplicit false

namespace EntityStore

namespace Term

def edited (term : Term) (edit : Store.Edit) (e : Entity) (value : Component) : Component :=
  match term.access with
  | .read => value
  | .write => value.withBytes (edit e value)

def editedAll (terms : List Term) (edit : Store.Edit) (e : Entity) (values : List Component) :
    List Component :=
  List.zipWith (fun term value => term.edited edit e value) terms values

theorem edited_type (term : Term) (edit : Store.Edit) (e : Entity) (value : Component) :
    (term.edited edit e value).type = value.type := by
  unfold edited
  split
  · rfl
  · exact Component.type_withBytes value _

end Term

namespace World

def write (w : World) (e : Entity) (id : ComponentId) (bytes : List UInt8) : World :=
  match w e with
  | none => w
  | some content =>
    if content.components id = none then w
    else Function.update w e (some (content.set id (some bytes)))

theorem write_present {w : World} {e : Entity} {id : ComponentId} {content : Content}
    (found : w e = some content) (present : content.components id ≠ none) (bytes : List UInt8) :
    w.write e id bytes = Function.update w e (some (content.set id (some bytes))) := by
  simp only [write, found, if_neg present]

theorem write_apply (w : World) (f : Entity) (id : ComponentId) (bytes : List UInt8) (e : Entity) :
    (w.write f id bytes) e =
      if e = f then (w e).map fun content =>
        if content.components id = none then content else content.set id (some bytes)
      else w e := by
  by_cases same : e = f
  · subst same
    rw [if_pos rfl, write]
    cases held : w e with
    | none => exact held
    | some content =>
        rw [Option.map_some]
        by_cases absent : content.components id = none
        · rw [if_pos absent]
          exact (congrFun (if_pos absent) e).trans held
        · rw [if_neg absent]
          exact (congrFun (if_neg absent) e).trans (Function.update_self ..)
  · rw [if_neg same, write]
    cases w f with
    | none => rfl
    | some content =>
        by_cases absent : content.components id = none
        · exact congrFun (if_pos absent) e
        · exact (congrFun (if_neg absent) e).trans (Function.update_of_ne same _ _)

def assign (w : World) (written : List (Entity × Component)) : World :=
  written.foldl (fun w p => w.write p.1 p.2.type.id p.2.bytes) w

theorem write_same {w : World} {e : Entity} {content : Content} (found : w e = some content)
    (id : ComponentId) (bytes : List UInt8) (held : content.components id = some bytes) :
    w.write e id bytes = w := by
  have present : content.components id ≠ none := by simp [held]
  rw [write_present found present, Content.set, ← held, Function.update_eq_self, ← found,
    Function.update_eq_self]

end World

namespace Store

def Untouched (cells : List Cell) (id : BlockId) (i : Nat) : Prop :=
  ∀ c ∈ cells, c.term.access = .write → c.block = id →
    i < c.piece.place c.row ∨ c.piece.place c.row + c.piece.descriptor.size ≤ i

structure Touches (s next : Store) (cells : List Cell) : Prop where
  frame : next = { s with pool := next.pool }
  allocated : next.pool.allocated = s.pool.allocated
  free : next.pool.free = s.pool.free
  vacant : ∀ id, s.block? id = none → next.block? id = none
  blocks : ∀ id b, s.block? id = some b → ∃ payload, next.block? id = some { b with payload } ∧
    payload.size = b.payload.size ∧ ∀ i, Untouched cells id i → payload.get i = b.payload.get i

def Shows (s : Store) (e : Entity) (cell : Cell) (value : Component) : Prop :=
  ∃ b c t, s.block? cell.block = some b ∧ b.typedColumn? cell.term.type = some c ∧
    cell.piece = b.pieceOf c ∧ b.tenant? cell.row = some t ∧ t.entity = e ∧
    value.type = cell.term.type ∧ t.components cell.term.type.id = some value.bytes

variable {registry : Registry} {s next last : Store} {cells others : List Cell}

namespace Touches

theorem refl (s : Store) (cells : List Cell) : Touches s s cells :=
  ⟨rfl, rfl, rfl, fun _ vacant => vacant, fun _ b found => ⟨b.payload, found, rfl, fun _ _ => rfl⟩⟩

theorem trans (first : Touches s next cells) (second : Touches next last others) :
    Touches s last (cells ++ others) := by
  refine ⟨?_, second.allocated.trans first.allocated, second.free.trans first.free,
    fun id vacant => second.vacant id (first.vacant id vacant), fun id b found => ?_⟩
  · have frame := second.frame
    rw [first.frame] at frame
    exact frame
  · obtain ⟨payload, early, size, same⟩ := first.blocks id b found
    obtain ⟨final, late, sizeLate, sameLate⟩ := second.blocks id _ early
    refine ⟨final, late, sizeLate.trans size, fun i untouched => ?_⟩
    rw [sameLate i fun c member => untouched c (List.mem_append_right cells member)]
    exact same i fun c member => untouched c (List.mem_append_left others member)

end Touches

theorem touches_put {b : Block} {c : Cell} (found : s.block? c.block = some b)
    (written : c.term.access = .write) (bytes : List UInt8)
    (length : bytes.length = c.piece.descriptor.size) :
    Touches s (s.put c.block (b.overwrite (c.piece.place c.row) bytes)) [c] := by
  obtain ⟨_, allocated, free⟩ := Pool.set_frame s.pool c.block (b.overwrite (c.piece.place c.row) bytes)
  have blocks := block_put found (b.overwrite (c.piece.place c.row) bytes)
  refine ⟨rfl, allocated, free, fun id vacant => ?_, fun id other held => ?_⟩
  · have away : id ≠ c.block := by
      rintro rfl
      rw [found] at vacant
      contradiction
    rw [blocks, if_neg away]
    exact vacant
  · rw [blocks]
    by_cases here : id = c.block
    · subst here
      obtain rfl := Option.some.inj (found.symm.trans held)
      refine ⟨_, by rw [if_pos rfl]; rfl, Buffer.size_write _ _ _, fun i untouched => ?_⟩
      have outside := untouched c (List.mem_singleton.mpr rfl) written rfl
      rw [Buffer.get_write, if_neg fun inside => by omega]
    · rw [if_neg here]
      exact ⟨other.payload, held, rfl, fun _ _ => rfl⟩

theorem read_shown (sound : s.Sound registry) {e : Entity} {cell : Cell} {value : Component}
    (shows : Shows s e cell value) : s.readCell? cell = some value := by
  obtain ⟨b, c, t, found, typed, piece, held, _, type, bytes⟩ := shows
  obtain ⟨column, same⟩ := (Block.typed_column_iff cell.term.type c).mp typed
  have laid := (sound.keeps cell.block b found).sound.laid
  have member := (Block.column_member _ c column).1
  obtain ⟨_, _, components⟩ := Block.tenant_side cell.row t held
  rw [components, Block.componentsAt, column] at bytes
  rw [readCell?, found, Option.map_some, piece]
  refine congrArg some (Component.ext_bytes type.symm ?_)
  rw [← same]
  exact (Block.value_bytes sound.genuine laid c member cell.row).trans (Option.some.inj bytes)

theorem shows_of_row (sound : s.Sound registry) {id : BlockId} {b : Block} {columns : List (Term × Column)}
    {terms : List Term} (found : s.block? id = some b) (offered : b.columnsOf terms = some columns)
    {row : Nat} (enabled : row < b.entityCount) (p : Term × Column) (member : p ∈ columns) :
    Shows s (b.entitySlot row) (Block.cellOf id b p row) (b.valueOf p row) := by
  have typed := ((Block.columns_of_some_iff b terms columns).mp offered).2 p member
  obtain ⟨column, same⟩ := (Block.typed_column_iff p.1.type p.2).mp typed
  have laid := (sound.keeps id b found).sound.laid
  have listed := (Block.column_member _ p.2 column).1
  have held := Block.tenant_some row true ((Block.side_enabled row).mpr enabled)
  refine ⟨b, p.2, _, found, typed, rfl, held, rfl, rfl, ?_⟩
  show (b.column? p.1.type.id).map _ = _
  rw [column, Option.map_some, Block.valueOf, ← same,
    Block.value_bytes sound.genuine laid p.2 listed row]

end Store

namespace Scene

open Checked

variable {s next last : Scene} {e : Entity} {cells others : List Cell}
  {written more : List (Entity × Component)}

structure Writes (s next : Scene) (written : List (Entity × Component)) (cells : List Cell) : Prop where
  becomes : Becomes s next 0 (s.world.assign written) s.slots
  touches : Store.Touches s.store next.store cells
  shows : ∀ f cell value, Store.Shows s.store f cell value →
    ∃ final, Store.Shows next.store f cell final ∧
      ((∀ p ∈ written, p.1 = f → p.2.type.id ≠ cell.term.type.id) → final = value)

namespace Writes

theorem refl (sound : s.Sound) : Writes s s [] [] :=
  ⟨becomes_refl sound, Store.Touches.refl s.store [], fun _ _ value shows => ⟨value, shows, fun _ => rfl⟩⟩

theorem trans (first : Writes s next written cells) (second : Writes next last more others) :
    Writes s last (written ++ more) (cells ++ others) := by
  refine ⟨?_, first.touches.trans second.touches, fun f cell value shows => ?_⟩
  · have both := first.becomes.trans second.becomes
    rw [first.becomes.world, first.becomes.slots] at both
    rw [World.assign, List.foldl_append]
    exact both
  · obtain ⟨middle, showsMiddle, kept⟩ := first.shows f cell value shows
    obtain ⟨final, showsFinal, keptLater⟩ := second.shows f cell middle showsMiddle
    refine ⟨final, showsFinal, fun apart => ?_⟩
    rw [keptLater fun p member => apart p (List.mem_append_right written member)]
    exact kept fun p member => apart p (List.mem_append_left more member)

end Writes

theorem home_of_shows (sound : s.Sound) {cell : Cell} {value : Component}
    (shows : Store.Shows s.store e cell value) :
    ∃ l b t, Home s e l b t ∧ l.spot = (cell.block, cell.row) ∧
      t.components cell.term.type.id = some value.bytes := by
  obtain ⟨b, c, t, found, _, _, held, name, _, bytes⟩ := shows
  have lives := (Store.tenant_eq found cell.row).trans held
  have located := sound.matched.known (cell.block, cell.row) t lives
  rw [name] at located
  obtain ⟨b', t', home⟩ := home_of sound located
  obtain rfl := Option.some.inj (found.symm.trans home.block)
  obtain rfl := Option.some.inj (held.symm.trans home.tenant)
  exact ⟨_, b, t, home, rfl, bytes⟩

theorem shows_after {b nextBlock : Block} {block : BlockId} {row : Nat} {t : Tenant} {c : Column}
    {written : Component} (sound : b.Sound s.registry) (found : s.store.block? block = some b)
    (held : b.tenant? row = some t) (typed : b.typedColumn? written.type = some c)
    (change : Block.Rewrites b nextBlock row
      (Function.update t.components written.type.id (some written.bytes)))
    {f : Entity} {cell : Cell} {value : Component} (shows : Store.Shows s.store f cell value) :
    ∃ final, Store.Shows (s.store.put block nextBlock) f cell final ∧
      ((cell.block, cell.row) = (block, row) → cell.term.type.id = written.type.id → final = written) ∧
      ((t.entity = f → written.type.id ≠ cell.term.type.id) → final = value) := by
  obtain ⟨b', d, t', found', typed', piece, held', name, type, bytes⟩ := shows
  have blocks := Store.block_put found nextBlock cell.block
  by_cases here : cell.block = block
  · rw [if_pos here] at blocks
    rw [here] at found'
    obtain rfl := Option.some.inj (found.symm.trans found')
    have columns : nextBlock.typedColumn? cell.term.type = some d := by
      rw [Block.typedColumn?, change.column]
      exact typed'
    have places : cell.piece = nextBlock.pieceOf d := by
      rw [Block.pieceOf, change.capacity]
      exact piece
    have tenants := change.tenant sound cell.row
    -- In the row itself the column decides: distinct columns have distinct ids.
    by_cases there : cell.row = row
    · rw [if_pos there, held, Option.map_some] at tenants
      rw [there] at held'
      obtain rfl := Option.some.inj (held.symm.trans held')
      by_cases same : cell.term.type.id = written.type.id
      · have known : written.type = cell.term.type := by
          obtain ⟨column, own⟩ := (Block.typed_column_iff written.type c).mp typed
          obtain ⟨column', own'⟩ := (Block.typed_column_iff cell.term.type d).mp typed'
          rw [same, column] at column'
          obtain rfl := Option.some.inj column'
          exact own.symm.trans own'
        refine ⟨written, ⟨nextBlock, d, _, blocks, columns, places, tenants, name, known, ?_⟩,
          fun _ _ => rfl, fun apart => absurd same.symm (apart name)⟩
        show Function.update t.components _ _ _ = _
        rw [same, Function.update_self]
      · refine ⟨value, ⟨nextBlock, d, _, blocks, columns, places, tenants, name, type, ?_⟩,
          fun _ equal => absurd equal same, fun _ => rfl⟩
        show Function.update t.components _ _ _ = _
        rw [Function.update_of_ne same]
        exact bytes
    · rw [if_neg there] at tenants
      exact ⟨value, ⟨nextBlock, d, t', blocks, columns, places, tenants.trans held', name, type, bytes⟩,
        fun equal => absurd (Prod.mk.inj equal).2 there, fun _ => rfl⟩
  · rw [if_neg here] at blocks
    exact ⟨value, ⟨b', d, t', blocks.trans found', typed', piece, held', name, type, bytes⟩,
      fun equal => absurd (Prod.mk.inj equal).1 here, fun _ => rfl⟩

theorem write_shown_ok (sound : s.Sound) (cell : Cell) (value written : Component)
    (shows : Store.Shows s.store e cell value) (type : written.type = cell.term.type)
    (access : cell.term.access = .write) :
    ∃ b nextBlock, s.store.block? cell.block = some b ∧
      b.writePiece cell.piece cell.row written.bytes = .ok nextBlock ∧
      Store.Shows (s.store.put cell.block nextBlock) e cell written ∧
      Writes s { s with store := s.store.put cell.block nextBlock } [(e, written)] [cell] := by
  obtain ⟨l, b, t, home, spot, bytes⟩ := home_of_shows sound shows
  obtain ⟨block, row⟩ := Prod.mk.inj spot
  have found : s.store.block? cell.block = some b := block ▸ home.block
  obtain ⟨c, typed, piece⟩ : ∃ c, b.typedColumn? cell.term.type = some c ∧ cell.piece = b.pieceOf c := by
    obtain ⟨b', c, _, found', typed, piece, _⟩ := shows
    obtain rfl := Option.some.inj (found.symm.trans found')
    exact ⟨c, typed, piece⟩
  obtain ⟨column, same⟩ := (Block.typed_column_iff cell.term.type c).mp typed
  obtain ⟨member, id⟩ := Block.column_member _ c column
  have laid := home.keeps.sound.laid
  have length : written.bytes.length = c.descriptor.size := by
    rw [written.length_eq, type, ← same]
    exact (Registry.entry_size (Block.entry_of_column sound.store.genuine laid c member)).symm
  have held : b.tenant? cell.row = some t := row ▸ home.tenant
  obtain ⟨wrote, change⟩ := Block.overwrite_ok home.keeps.sound cell.row t held c member written.bytes length
  rw [id, ← type] at change
  have place : cell.piece.place cell.row = c.span.place cell.row := by
    rw [piece, Block.place_piece]
  have touched := Store.touches_put found access written.bytes (by rw [piece]; exact length)
  rw [place] at touched
  have after {f : Entity} {other : Cell} {u : Component} (shows : Store.Shows s.store f other u) :=
    shows_after home.keeps.sound found held (type ▸ typed) change shows
  have rewritten : Block.Rewrites b (b.overwrite (c.span.place cell.row) written.bytes) l.row
      (Function.update t.components written.type.id (some written.bytes)) := by
    rw [row]
    exact change
  have becomes := rewrite_ok sound home rewritten
  rw [block] at becomes
  have present : t.components written.type.id ≠ none := by
    rw [type, bytes]
    simp
  have assigned : s.world.assign [(e, written)] = _ :=
    World.write_present home.world present written.bytes
  obtain ⟨shown, shownNow, exact, _⟩ := after shows
  obtain rfl := exact rfl (congrArg ComponentType.id type.symm)
  refine ⟨b, b.overwrite (c.span.place cell.row) shown.bytes, found, by rw [piece]; exact wrote, shownNow,
    ?_, touched, fun f other u shows => ?_⟩
  · rw [assigned]
    exact becomes
  · obtain ⟨final, showsFinal, _, kept⟩ := after shows
    exact ⟨final, showsFinal, fun apart => kept fun same =>
      apart (e, shown) List.mem_cons_self (home.entity.symm.trans same)⟩

theorem visit_cell_ok (sound : s.Sound) (edit : Store.Edit) (cell : Cell) (value : Component)
    (shows : Store.Shows s.store e cell value) :
    ∃ store, s.store.visitCell edit e cell = .ok (some (cell.term.edited edit e value), store) ∧
      Writes s { s with store } [(e, cell.term.edited edit e value)] [cell] := by
  have reads := Store.read_shown sound.store shows
  have type : value.type = cell.term.type := by
    obtain ⟨_, _, _, _, _, _, _, _, type, _⟩ := shows
    exact type
  cases access : cell.term.access with
  | read =>
      have kept : cell.term.edited edit e value = value := by
        rw [Term.edited, access]
      obtain ⟨l, b, t, home, _, bytes⟩ := home_of_shows sound shows
      have still : s.world.assign [(e, value)] = s.world := by
        refine World.write_same home.world _ _ ?_
        rw [type]
        exact bytes
      rw [kept]
      refine ⟨s.store, ?_, ?_, Store.Touches.refl s.store [cell],
        fun _ _ other shows => ⟨other, shows, fun _ => rfl⟩⟩
      · simp only [Store.visitCell, access, reads]
      · rw [still]
        exact becomes_refl sound
  | write =>
      have changed : cell.term.edited edit e value = value.withBytes (edit e value) := by
        rw [Term.edited, access]
      obtain ⟨b, nextBlock, found, wrote, shown, writes⟩ := write_shown_ok sound cell value
        (cell.term.edited edit e value) shows (by rw [Term.edited_type, type]) access
      have old : b.valueAt cell.term.type (cell.piece.place cell.row) = value := by
        rw [Store.readCell?, found, Option.map_some] at reads
        exact Option.some.inj reads
      refine ⟨s.store.put cell.block nextBlock, ?_, writes⟩
      rw [changed] at wrote
      simp only [Store.visitCell, access, found, old, wrote, ok_bind, pure_eq_ok]
      rw [Store.read_shown writes.becomes.sound.store shown]

def ShowsAll (s : Scene) (e : Entity) (cells : List Cell) (values : List Component) : Prop :=
  List.Forall₂ (Store.Shows s.store e) cells values

theorem shows_all_after (writes : Writes s next written cells) (row : List Cell) (values : List Component)
    (shows : ShowsAll s e row values) :
    ∃ finals, ShowsAll next e row finals ∧
      ((∀ p ∈ written, p.1 = e → ∀ cell ∈ row, p.2.type.id ≠ cell.term.type.id) → finals = values) := by
  induction shows with
  | nil => exact ⟨[], .nil, fun _ => rfl⟩
  | cons head tail ih =>
      obtain ⟨final, showsFinal, kept⟩ := writes.shows _ _ _ head
      obtain ⟨finals, showsFinals, keptAll⟩ := ih
      refine ⟨final :: finals, .cons showsFinal showsFinals, fun apart => ?_⟩
      rw [kept fun p member same => apart p member same _ List.mem_cons_self,
        keptAll fun p member same cell listed => apart p member same cell (List.mem_cons_of_mem _ listed)]

theorem visit_row_ok (edit : Store.Edit) (row : List Cell) (values : List Component) (sound : s.Sound)
    (shows : ShowsAll s e row values) :
    ∃ finals store, s.store.visitRow edit e row = .ok (finals, store) ∧
      Writes s { s with store } (finals.map fun value => (e, value)) row ∧
      finals.map Component.type = row.map (fun cell => cell.term.type) ∧
      ((row.map fun cell => cell.term.type.id).Nodup →
        finals = Term.editedAll (row.map Cell.term) edit e values) := by
  induction row generalizing s values with
  | nil => exact ⟨[], s.store, rfl, Writes.refl sound, rfl, fun _ => by cases shows; rfl⟩
  | cons cell rest ih =>
      cases shows with
      | cons head tail =>
          rename_i value others
          have type : value.type = cell.term.type := by
            obtain ⟨_, _, _, _, _, _, _, _, type, _⟩ := head
            exact type
          obtain ⟨store, visited, writes⟩ := visit_cell_ok sound edit cell value head
          obtain ⟨middles, showsRest, kept⟩ := shows_all_after writes rest others tail
          obtain ⟨finals, last, visitedRest, writesRest, types, edits⟩ :=
            ih (s := { s with store }) middles writes.becomes.sound showsRest
          refine ⟨cell.term.edited edit e value :: finals, last, ?_, Writes.trans writes writesRest, ?_,
            fun distinct => ?_⟩
          · have visitedRest : store.visitRow edit e rest = .ok (finals, last) := visitedRest
            simp only [Store.visitRow, visited, visitedRest, ok_bind, pure_eq_ok]
            rfl
          · rw [List.map_cons, List.map_cons, types, Term.edited_type, type]
          · obtain ⟨alone, tailDistinct⟩ := List.nodup_cons.mp distinct
            rw [edits tailDistinct, kept fun p member _ other listed => ?_]
            · rfl
            · obtain rfl := List.mem_singleton.mp member
              rw [Term.edited_type, type]
              exact fun same => alone (List.mem_map.mpr ⟨other, listed, same.symm⟩)

def ShowsRows (s : Scene) (rows : List (Entity × List Cell)) (shown : List (Entity × List Component)) :
    Prop :=
  List.Forall₂ (fun row values => values.1 = row.1 ∧ ShowsAll s row.1 row.2 values.2) rows shown

def assignments (rows : List (Entity × List Component)) : List (Entity × Component) :=
  rows.flatMap fun row => row.2.map fun value => (row.1, value)

theorem shows_rows_after (writes : Writes s next written cells) (rows : List (Entity × List Cell))
    (shown : List (Entity × List Component)) (shows : ShowsRows s rows shown) :
    ∃ finals, ShowsRows next rows finals ∧
      ((∀ p ∈ written, p.1 ∉ rows.map Prod.fst) → finals = shown) := by
  induction shows with
  | nil => exact ⟨[], .nil, fun _ => rfl⟩
  | @cons row values rest others head tail ih =>
      obtain ⟨name, showsHead⟩ := head
      obtain ⟨final, showsFinal, kept⟩ := shows_all_after writes row.2 values.2 showsHead
      obtain ⟨finals, showsFinals, keptAll⟩ := ih
      refine ⟨(values.1, final) :: finals, .cons ⟨name, showsFinal⟩ showsFinals, fun apart => ?_⟩
      have away : ∀ p ∈ written, p.1 = row.1 → ∀ cell ∈ row.2, p.2.type.id ≠ cell.term.type.id :=
        fun p member same => absurd (same ▸ List.mem_cons_self) (apart p member)
      rw [kept away, keptAll fun p member listed => apart p member (List.mem_cons_of_mem _ listed)]

theorem visit_rows_ok (edit : Store.Edit) (rows : List (Entity × List Cell))
    (shown : List (Entity × List Component)) (sound : s.Sound) (shows : ShowsRows s rows shown) :
    ∃ finals store, s.store.visitRows edit rows = .ok (finals, store) ∧
      Writes s { s with store } (assignments finals) (rows.flatMap Prod.snd) ∧
      ((rows.map Prod.fst).Nodup →
        (∀ row ∈ rows, (row.2.map fun cell => cell.term.type.id).Nodup) →
        finals = List.zipWith (fun row values =>
          (row.1, Term.editedAll (row.2.map Cell.term) edit row.1 values.2)) rows shown) := by
  induction rows generalizing s shown with
  | nil => exact ⟨[], s.store, rfl, Writes.refl sound, fun _ _ => by cases shows; rfl⟩
  | cons row rest ih =>
      cases shows with
      | cons head tail =>
          rename_i values others
          obtain ⟨e, row⟩ := row
          obtain ⟨final, store, visited, writes, _, edits⟩ :=
            visit_row_ok (e := e) edit row values.2 sound head.2
          -- Cells of later rows belong to other entities, so they still show what they showed.
          obtain ⟨middles, showsRest, kept⟩ := shows_rows_after writes rest others tail
          obtain ⟨finals, last, visitedRest, writesRest, editsRest⟩ :=
            ih (s := { s with store }) middles writes.becomes.sound showsRest
          refine ⟨(e, final) :: finals, last, ?_, Writes.trans writes writesRest,
            fun distinct ids => ?_⟩
          · have visitedRest : store.visitRows edit rest = .ok (finals, last) := visitedRest
            simp only [Store.visitRows, visited, visitedRest, ok_bind, pure_eq_ok]
          · obtain ⟨alone, tailDistinct⟩ := List.nodup_cons.mp distinct
            have away : ∀ p ∈ final.map (fun value => (e, value)), p.1 ∉ rest.map Prod.fst := by
              intro p member
              obtain ⟨_, _, rfl⟩ := List.mem_map.mp member
              exact alone
            rw [edits (ids _ List.mem_cons_self), List.zipWith_cons_cons,
              editsRest tailDistinct fun other member => ids other (List.mem_cons_of_mem _ member),
              kept away]

section Visit

def upTo {α : Type} (limit : Option Nat) (rows : List α) : List α :=
  match limit with
  | none => rows
  | some limit => rows.take limit

theorem up_to_sublist {α : Type} (limit : Option Nat) (rows : List α) : (upTo limit rows).Sublist rows := by
  cases limit with
  | none => exact List.Sublist.refl rows
  | some limit => exact List.take_sublist limit rows

theorem forall_up_to {α β : Type} {R : α → β → Prop} (limit : Option Nat) (rows : List α) (others : List β)
    (related : List.Forall₂ R rows others) : List.Forall₂ R (upTo limit rows) (upTo limit others) := by
  cases limit with
  | none => exact related
  | some limit => exact List.forall₂_take limit related

def Aligned (s : Scene) (terms : List Term) (row : Entity × List Cell)
    (values : Entity × List Component) : Prop :=
  (values.1 = row.1 ∧ ShowsAll s row.1 row.2 values.2) ∧ row.2.map Cell.term = terms

theorem table_aligned (sound : s.Sound) (v : View) :
    List.Forall₂ (Aligned s v.query.terms) (s.store.table v Block.cellOf)
      (s.store.table v fun _ b => b.valueOf) := by
  refine List.rel_flatMap (R := Eq) (List.forall₂_same.mpr fun _ _ => rfl) ?_
  rintro id _ rfl
  cases found : s.store.block? id with
  | none =>
      rw [Store.block_table_none found, Store.block_table_none found]
      exact .nil
  | some b =>
      simp only [Store.block_table_some found, Block.table]
      cases offered : b.columnsOf v.query.terms with
      | none => exact .nil
      | some columns =>
          have listed := ((Block.columns_of_some_iff b v.query.terms columns).mp offered).1
          refine List.forall₂_map_left_iff.mpr (List.forall₂_map_right_iff.mpr
            (List.forall₂_same.mpr fun row member => ⟨⟨rfl, ?_⟩, ?_⟩))
          · refine List.forall₂_map_left_iff.mpr (List.forall₂_map_right_iff.mpr
              (List.forall₂_same.mpr fun p offer => ?_))
            exact Store.shows_of_row sound.store found offered (List.mem_range.mp member) p offer
          · rw [List.map_map]
            exact listed

theorem aligned_terms (terms : List Term) (rows : List (Entity × List Cell))
    (shown : List (Entity × List Component)) (aligned : List.Forall₂ (Aligned s terms) rows shown) :
    ∀ row ∈ rows, row.2.map Cell.term = terms := by
  induction aligned with
  | nil => simp
  | cons head _ ih =>
      intro row member
      rcases List.mem_cons.mp member with rfl | later
      · exact head.2
      · exact ih row later

theorem aligned_names (terms : List Term) (rows : List (Entity × List Cell))
    (shown : List (Entity × List Component)) (aligned : List.Forall₂ (Aligned s terms) rows shown) :
    rows.map Prod.fst = shown.map Prod.fst := by
  induction aligned with
  | nil => rfl
  | cons head _ ih => rw [List.map_cons, List.map_cons, ih, head.1.1]

theorem edited_rows_eq (edit : Store.Edit) (terms : List Term) (rows : List (Entity × List Cell))
    (shown : List (Entity × List Component)) (aligned : List.Forall₂ (Aligned s terms) rows shown) :
    (List.zipWith (fun row values => (row.1, Term.editedAll (row.2.map Cell.term) edit row.1 values.2))
      rows shown) = shown.map fun values => (values.1, Term.editedAll terms edit values.1 values.2) := by
  induction aligned with
  | nil => rfl
  | cons head _ ih =>
      obtain ⟨⟨name, _⟩, listed⟩ := head
      rw [List.zipWith_cons_cons, ih, listed, List.map_cons, name]

theorem visit_ok (sound : s.Sound) (v : View) (distinct : v.query.ids.Nodup)
    (ascending : v.blocks.Pairwise (· < ·)) (limit : Option Nat) (edit : Store.Edit) :
    ∃ rows store, s.visit v limit edit = .ok (rows, { s with store }) ∧
      Writes s { s with store } (assignments rows)
        ((upTo limit (s.store.table v Block.cellOf)).flatMap Prod.snd) ∧
      (((upTo limit (s.store.table v fun _ b => b.valueOf)).map Prod.fst).Nodup →
        rows = (upTo limit (s.store.table v fun _ b => b.valueOf)).map fun row =>
          (row.1, Term.editedAll v.query.terms edit row.1 row.2)) := by
  have aligned := forall_up_to limit _ _ (table_aligned sound v)
  have shows : ShowsRows s _ _ := aligned.imp fun _ _ both => both.1
  obtain ⟨rows, store, visited, writes, edits⟩ := visit_rows_ok edit _ _ sound shows
  refine ⟨rows, store, ?_, writes, fun once => ?_⟩
  · cases limit with
    | none =>
        have visited : s.store.visitRows edit (s.store.table v Block.cellOf) = .ok (rows, store) := visited
        simp only [visit, Store.cell_rows_ok sound.store v distinct ascending, ok_bind, visited, pure_eq_ok]
    | some limit =>
        have visited : s.store.visitRows edit ((s.store.table v Block.cellOf).take limit) =
            .ok (rows, store) := visited
        simp only [visit, Store.cell_rows_ok sound.store v distinct ascending, ok_bind, visited, pure_eq_ok]
  · have names := aligned_names v.query.terms _ _ aligned
    rw [edits (names ▸ once) fun row member => ?_, edited_rows_eq edit v.query.terms _ _ aligned]
    have listed := congrArg (List.map fun term => term.type.id)
      (aligned_terms v.query.terms _ _ aligned row member)
    rw [List.map_map] at listed
    exact listed ▸ distinct

end Visit

end Scene

end EntityStore
