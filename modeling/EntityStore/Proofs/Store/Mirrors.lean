import EntityStore.Proofs.Checked
import EntityStore.Query

set_option autoImplicit false

namespace EntityStore.Store

open Checked

variable {α : Type} {registry : Registry} {R : Store → Store → Prop} {s other : Store}

inductive Abreast (R : Store → Store → Prop) : α × Store → α × Store → Prop where
  | both (answer : α) {s other : Store} (related : R s other) : Abreast R (answer, s) (answer, other)

-- A relation between stores with the same blocks that the operations on both preserve.
structure Mirrors (registry : Registry) (R : Store → Store → Prop) : Prop where
  pool : ∀ {s other}, R s other → other.pool = s.pool
  put : ∀ {s other} id block, R s other → R (s.put id block) (other.put id block)
  bump : ∀ {s other}, R s other → R s.bump other.bump
  destroy : ∀ {s other} id, R s other → Alongside R (s.destroyBlock id) (other.destroyBlock id)
  clear : ∀ {s other}, R s other → Alongside R s.clear other.clear
  acquire : ∀ {s other} signature, R s other →
    Alongside (Abreast R) (s.acquire registry signature) (other.acquire registry signature)

variable (mirrors : Mirrors registry R) (related : R s other)

include mirrors related

theorem block_mirrored (id : BlockId) : other.block? id = s.block? id := by
  rw [block?, mirrors.pool related, block?]

theorem insert_mirrored (signature : Signature) (e : Entity) :
    Alongside (Abreast R) (s.insert registry signature e) (other.insert registry signature e) := by
  refine alongside_bind (mirrors.acquire signature related) fun _ _ acquired => ?_
  obtain ⟨outcome, related⟩ := acquired
  cases outcome with
  | error error => exact .ok (.both _ related)
  | ok id =>
      simp only [block_mirrored mirrors related, mirrors.pool related]
      split
      · exact .ok (.both _ related)
      · refine alongside_bind_same _ fun pushed => ?_
        cases pushed with
        | none => exact .ok (.both _ related)
        | some arrived => exact .ok (.both _ (mirrors.bump (mirrors.put id arrived.2 related)))

theorem release_if_empty_mirrored (id : BlockId) :
    Alongside (Abreast R) (s.releaseIfEmpty id) (other.releaseIfEmpty id) := by
  rw [releaseIfEmpty, releaseIfEmpty, block_mirrored mirrors related]
  cases s.block? id with
  | none => exact .ok (.both _ related)
  | some block =>
      refine alongside_bind_same _ fun empty => ?_
      cases empty with
      | true => exact alongside_bind (mirrors.destroy id related) fun _ _ freed => .ok (.both _ freed)
      | false => exact .ok (.both _ related)

theorem read_rows_mirrored (v : View) : other.readRows v = s.readRows v := by
  have same : other.enter = s.enter := by
    funext q source id
    rw [enter, block_mirrored mirrors related, enter]
  rw [readRows, same, readRows]

theorem cell_rows_mirrored (v : View) : other.cellRows v = s.cellRows v := by
  rw [cellRows, mirrors.pool related, cellRows]

theorem read_cell_mirrored (c : Cell) : other.readCell? c = s.readCell? c := by
  rw [readCell?, block_mirrored mirrors related, readCell?]

theorem visit_cell_mirrored (edit : Edit) (e : Entity) (c : Cell) :
    Alongside (Abreast R) (s.visitCell edit e c) (other.visitCell edit e c) := by
  have asIs : Alongside (Abreast R) (.ok (s.readCell? c, s)) (.ok (other.readCell? c, other)) := by
    rw [read_cell_mirrored mirrors related]
    exact .ok (.both _ related)
  rw [visitCell, visitCell, block_mirrored mirrors related]
  cases c.term.access with
  | read => exact asIs
  | write =>
      cases s.block? c.block with
      | none => exact asIs
      | some block =>
          refine alongside_bind_same _ fun written => ?_
          have put := mirrors.put c.block written related
          simp only [read_cell_mirrored mirrors put]
          exact .ok (.both _ put)

theorem visit_row_mirrored (edit : Edit) (e : Entity) (cells : List Cell) :
    Alongside (Abreast R) (s.visitRow edit e cells) (other.visitRow edit e cells) := by
  induction cells generalizing s other with
  | nil => exact .ok (.both _ related)
  | cons c rest ih =>
      refine alongside_bind (visit_cell_mirrored mirrors related edit e c) fun _ _ visited => ?_
      obtain ⟨value, related⟩ := visited
      refine alongside_bind (ih related) fun _ _ later => ?_
      obtain ⟨values, related⟩ := later
      exact .ok (.both _ related)

theorem visit_rows_mirrored (edit : Edit) (rows : List (Entity × List Cell)) :
    Alongside (Abreast R) (s.visitRows edit rows) (other.visitRows edit rows) := by
  induction rows generalizing s other with
  | nil => exact .ok (.both _ related)
  | cons row rest ih =>
      refine alongside_bind (visit_row_mirrored mirrors related edit row.1 row.2) fun _ _ visited => ?_
      obtain ⟨values, related⟩ := visited
      refine alongside_bind (ih related) fun _ _ later => ?_
      obtain ⟨others, related⟩ := later
      exact .ok (.both _ related)

end EntityStore.Store
