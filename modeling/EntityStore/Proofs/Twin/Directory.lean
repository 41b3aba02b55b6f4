import EntityStore.Proofs.Renamed.Directory

set_option autoImplicit false

namespace EntityStore

open Checked

variable {r t : Record} {e : Entity}

structure Record.Twin (r t : Record) : Prop where
  frame : t = { r with entity := t.entity }
  entity : r.isAlive = true → t.entity = r.entity

namespace Record.Twin

theorem refl (r : Record) : r.Twin r := ⟨rfl, fun _ => rfl⟩

theorem is_alive (twin : r.Twin t) : t.isAlive = r.isAlive := by
  rw [twin.frame]
  rfl

theorem eq_of_alive (twin : r.Twin t) (alive : r.isAlive = true) : t = r := by
  rw [twin.frame, twin.entity alive]

theorem generation (twin : r.Twin t) : t.generation = r.generation := by
  rw [twin.frame]

theorem rename (twin : r.Twin t) (dead : t.isAlive = false) (f : Entity) : r.Twin { t with entity := f } := by
  refine ⟨?_, fun alive => ?_⟩
  · rw [twin.frame]
  · rw [twin.is_alive, alive] at dead
    contradiction

theorem kill_if_alive (twin : r.Twin t) :
    Record.Twin (if r.isAlive then r.kill else r) (if t.isAlive then t.kill else t) := by
  rw [twin.is_alive]
  by_cases alive : r.isAlive = true
  · rw [if_pos alive, if_pos alive, twin.eq_of_alive alive]
    exact refl _
  · rw [if_neg alive, if_neg alive]
    exact twin

end Record.Twin

namespace Directory

variable {d other : Directory}

section Records

theorem inside_of_live (live : d.get? e = some r) : e.index.toNat < d.size :=
  (Array.getElem?_eq_some_iff.mp (live_record live).1).1

theorem get_eq (d : Directory) (e : Entity) :
    d.get? e = ((d.records[e.index.toNat]?).filter Record.isAlive).filter fun r => r.generation = e.generation := by
  rw [get?, Option.filter_filter]
  rfl

theorem update_same (index : UInt32) (held : d.records[index.toNat]? = some r) : d.update index r = d := by
  have records : d.records.setIfInBounds index.toNat r = d.records := by
    refine Array.ext_getElem? fun i => ?_
    rw [record_replace index r r held]
    by_cases here : i = index.toNat
    · rw [if_pos here, here, held]
    · rw [if_neg here]
  rw [Directory.update, records]

def handleOf? (d : Directory) (i : Nat) : Option Entity :=
  ((d.records[i]?).filter Record.isAlive).map fun r => ⟨.ofNat i, r.generation⟩

theorem zip_range (records : List Record) (start n : Nat) (enough : records.length ≤ n) :
    ((records.zipIdx start).filterMap fun (r, i) =>
        if r.isAlive then some (⟨.ofNat i, r.generation⟩ : Entity) else none) =
      (List.range n).filterMap fun i =>
        ((records[i]?).filter Record.isAlive).map fun r => ⟨.ofNat (start + i), r.generation⟩ := by
  induction records generalizing start n with
  | nil =>
      refine (List.filterMap_eq_nil_iff.mpr fun i _ => ?_).symm
      rw [List.getElem?_nil]
      rfl
  | cons r rest ih =>
      cases n with
      | zero => contradiction
      | succ n =>
          have later := ih (start + 1) n (Nat.le_of_succ_le_succ enough)
          have shift (i : Nat) : start + 1 + i = start + (i + 1) := by omega
          simp only [shift] at later
          rw [List.range_succ_eq_map, List.filterMap_cons, List.filterMap_map, List.zipIdx_cons,
            List.filterMap_cons]
          cases alive : r.isAlive with
          | true => simpa [alive, Option.filter_some, Function.comp_def] using later
          | false => simpa [alive, Option.filter_some, Function.comp_def] using later

theorem handles_range (d : Directory) (n : Nat) (enough : d.size ≤ n) :
    d.handles = (List.range n).filterMap d.handleOf? := by
  rw [handles, zip_range d.records.toList 0 n enough]
  refine congrArg (List.filterMap · _) (funext fun i => ?_)
  rw [Array.getElem?_toList, Nat.zero_add]
  rfl

end Records

section Handles

def fresh (size : Nat) : Record := ⟨⟨.ofNat size, 1⟩, none, 0, 1, true⟩

theorem append_bind (d : Directory) : d.append =
    (require (d.size < 0xffffffff) .indexSpaceExhausted >>= fun _ =>
      .ok (⟨.ofNat d.size, 1⟩, { d with records := d.records.push (fresh d.size) })) := rfl

theorem pushed_record (d : Directory) (r : Record) (i : Nat) :
    (d.records.push r)[i]? = if i = d.size then some r else d.records[i]? := Array.getElem?_push

theorem toNat_size (room : d.size < 0xffffffff) : (UInt32.ofNat d.size).toNat = d.size :=
  UInt32.toNat_ofNat_of_lt' (Nat.lt_trans room (by decide))

theorem reserve_append (recycles : d.recycle = true) (free : d.free = []) : d.reserve = d.append := by
  rw [Directory.reserve, recycles, free]

theorem reserve_pop (recycles : d.recycle = true) {index : UInt32} {rest : List UInt32}
    (free : d.free = index :: rest) (held : d.records[index.toNat]? = some r)
    (handle : e = ⟨index, r.generation⟩) :
    d.reserve = .ok (e, { d with free := rest }.update index { r with entity := e }) := by
  cases d
  subst recycles free handle
  simp only [Directory.reserve, held]

theorem abandon_bind (recycles : d.recycle = true) (e : Entity) : d.abandon e =
    (require (!d.isAlive e) .placedHandleAbandoned >>= fun _ => .ok { d with free := e.index :: d.free }) := by
  rw [Directory.abandon, if_pos recycles]
  rfl

theorem of_abandon {next : Directory} (abandoned : d.abandon e = .ok next) (recycles : d.recycle = true) :
    d.isAlive e = false ∧ next = { d with free := e.index :: d.free } := by
  rw [abandon_bind recycles] at abandoned
  obtain ⟨unplaced, same⟩ := (require_bind_iff _ _ _ _).mp abandoned
  exact ⟨(Bool.not_eq_true' _).mp unplaced, (Except.ok.inj same).symm⟩

end Handles

-- A record that was never placed, with the index that the next appended record would have.
structure Spare (d other : Directory) : Prop where
  room : d.size < 0xffffffff
  size : other.size = d.size + 1
  free : other.free = d.free ++ [.ofNat d.size]
  record : ∃ entity, other.records[d.size]? = some ⟨entity, none, 0, 1, true⟩

structure Twin (d other : Directory) : Prop where
  recycle : d.recycle = true
  recycleOther : other.recycle = true
  alive : other.alive = d.alive
  records : ∀ (i : Nat) r, d.records[i]? = some r → ∃ t, other.records[i]? = some t ∧ r.Twin t
  free : ∀ i ∈ d.free, i.toNat < d.size
  supply : other.size = d.size ∧ other.free = d.free ∨ Spare d other

def Names (d : Directory) (e : Entity) : Prop := ∃ r, d.records[e.index.toNat]? = some r ∧ r.entity = e

namespace Twin

theorem of_create : Twin (create true) (create true) where
  recycle := rfl
  recycleOther := rfl
  alive := rfl
  records _ r held := ⟨r, held, .refl r⟩
  free _ member := absurd member List.not_mem_nil
  supply := Or.inl ⟨rfl, rfl⟩

theorem size (twin : d.Twin other) : d.size ≤ other.size ∧ other.size ≤ d.size + 1 := by
  cases twin.supply with
  | inl same =>
      rw [same.1]
      exact ⟨Nat.le_refl _, Nat.le_succ _⟩
  | inr spare =>
      rw [spare.size]
      exact ⟨Nat.le_succ _, Nat.le_refl _⟩

section Answers

theorem alive_record (twin : d.Twin other) (i : Nat) :
    (other.records[i]?).filter Record.isAlive = (d.records[i]?).filter Record.isAlive := by
  cases held : d.records[i]? with
  | some r =>
      obtain ⟨t, there, related⟩ := twin.records i r held
      rw [there, Option.filter_some, Option.filter_some, related.is_alive]
      by_cases alive : r.isAlive = true
      · rw [if_pos alive, if_pos alive, related.eq_of_alive alive]
      · rw [if_neg alive, if_neg alive]
  | none =>
      have beyond : d.size ≤ i := Array.getElem?_eq_none_iff.mp held
      have nothing (outside : other.size ≤ i) : other.records[i]? = none := Array.getElem?_eq_none outside
      cases twin.supply with
      | inl same => rw [nothing (same.1 ▸ beyond)]
      | inr spare =>
          by_cases last : i = d.size
          · obtain ⟨entity, there⟩ := spare.record
            rw [last, there]
            rfl
          · rw [nothing (by rw [spare.size]; omega)]

theorem get (twin : d.Twin other) (e : Entity) : other.get? e = d.get? e := by
  rw [get_eq, twin.alive_record, get_eq]

theorem is_alive (twin : d.Twin other) (e : Entity) : other.isAlive e = d.isAlive e := by
  rw [Directory.isAlive, twin.get, Directory.isAlive]

theorem locate (twin : d.Twin other) (e : Entity) : other.locate e = d.locate e := by
  rw [Directory.locate, twin.get, Directory.locate]

theorem locate_spot (twin : d.Twin other) (e : Entity) : other.locate? e = d.locate? e := by
  rw [locate?, twin.get, locate?]

theorem entities (twin : d.Twin other) : other.entities = d.entities := by
  rw [entities_range other (d.size + other.size) (Nat.le_add_left _ _),
    entities_range d (d.size + other.size) (Nat.le_add_right _ _)]
  refine congrArg (List.filterMap · _) (funext fun i => ?_)
  rw [tenantOf?, twin.alive_record, tenantOf?]

theorem handles (twin : d.Twin other) : other.handles = d.handles := by
  rw [handles_range other (d.size + other.size) (Nat.le_add_left _ _),
    handles_range d (d.size + other.size) (Nat.le_add_right _ _)]
  refine congrArg (List.filterMap · _) (funext fun i => ?_)
  rw [handleOf?, twin.alive_record, handleOf?]

end Answers

section Changes

theorem recount (twin : d.Twin other) (alive : Nat) : Twin { d with alive } { other with alive } :=
  ⟨twin.recycle, twin.recycleOther, rfl, twin.records, twin.free,
    twin.supply.imp id fun spare => ⟨spare.room, spare.size, spare.free, spare.record⟩⟩

theorem update (twin : d.Twin other) (index : UInt32) (inside : index.toNat < d.size) (related : r.Twin t) :
    Twin (d.update index r) (other.update index t) := by
  have size : (d.update index r).size = d.size := Array.size_setIfInBounds
  have sizeOther : (other.update index t).size = other.size := Array.size_setIfInBounds
  obtain ⟨old, here⟩ : ∃ old, d.records[index.toNat]? = some old := ⟨_, Array.getElem?_eq_getElem inside⟩
  obtain ⟨oldOther, there, -⟩ := twin.records _ old here
  refine ⟨twin.recycle, twin.recycleOther, twin.alive, fun i record held => ?_, size ▸ twin.free, ?_⟩
  · rw [Directory.update, record_replace index r old here] at held
    rw [Directory.update, record_replace index t oldOther there]
    by_cases same : i = index.toNat
    · rw [if_pos same] at held ⊢
      exact ⟨t, rfl, Option.some.inj held ▸ related⟩
    · rw [if_neg same] at held ⊢
      exact twin.records i record held
  · rw [size, sizeOther]
    refine twin.supply.imp id fun spare => ⟨size ▸ spare.room, ?_, size ▸ spare.free, ?_⟩
    · rw [size, sizeOther, spare.size]
    · rw [size, Directory.update, record_replace index t oldOther there, if_neg (Nat.ne_of_gt inside)]
      exact spare.record

theorem push_free (twin : d.Twin other) (index : UInt32) (inside : index.toNat < d.size) :
    Twin { d with free := index :: d.free } { other with free := index :: other.free } := by
  refine ⟨twin.recycle, twin.recycleOther, twin.alive, twin.records, List.forall_mem_cons.mpr ⟨inside, twin.free⟩, ?_⟩
  cases twin.supply with
  | inl same => exact Or.inl ⟨same.1, congrArg (index :: ·) same.2⟩
  | inr spare => exact Or.inr ⟨spare.room, spare.size, congrArg (index :: ·) spare.free, spare.record⟩

theorem pop_free (twin : d.Twin other) {index : UInt32} {rest : List UInt32} (free : d.free = index :: rest) :
    ∃ restOther, other.free = index :: restOther ∧
      Twin { d with free := rest } { other with free := restOther } := by
  have fewer (i : UInt32) (member : i ∈ rest) : i.toNat < d.size :=
    twin.free i (free ▸ List.mem_cons_of_mem index member)
  cases twin.supply with
  | inl same =>
      exact ⟨rest, same.2.trans free, twin.recycle, twin.recycleOther, twin.alive, twin.records, fewer,
        Or.inl ⟨same.1, rfl⟩⟩
  | inr spare =>
      refine ⟨rest ++ [.ofNat d.size], ?_, twin.recycle, twin.recycleOther, twin.alive, twin.records,
        fewer, Or.inr ?_⟩
      · rw [spare.free, free, List.cons_append]
      · exact ⟨spare.room, spare.size, rfl, spare.record⟩

theorem relocate (twin : d.Twin other) (e : Entity) (block : BlockId) (row : Nat) :
    Both id Twin (d.relocate e block row) (other.relocate e block row) := by
  rw [Directory.relocate, Directory.relocate, twin.get]
  cases found : d.get? e with
  | none => exact .error (.same _)
  | some record =>
      exact .ok (twin.update e.index (inside_of_live found) (.refl _))

theorem relocate_moved (twin : d.Twin other) (moved : Option Entity) (block : BlockId) (row : Nat) :
    Both id Twin (d.relocateMoved moved block row) (other.relocateMoved moved block row) := by
  cases moved with
  | none => exact .ok twin
  | some e => exact twin.relocate e block row

theorem set_enabled (twin : d.Twin other) (e : Entity) (enabled : Bool) :
    Twin (d.setEnabled e enabled) (other.setEnabled e enabled) := by
  rw [Directory.setEnabled, Directory.setEnabled, twin.get]
  cases found : d.get? e with
  | none => exact twin
  | some record =>
      exact twin.update e.index (inside_of_live found) (.refl _)

theorem release (twin : d.Twin other) (e : Entity) : Both id Twin (d.release e) (other.release e) := by
  rw [Directory.release, Directory.release, twin.get, twin.alive]
  cases found : d.get? e with
  | none => exact .ok twin
  | some record =>
      have inside := inside_of_live found
      refine both_bind_same _ fun alive _ => .ok ?_
      simp only [if_pos twin.recycle, if_pos twin.recycleOther]
      exact ((twin.recount alive).push_free e.index inside).update e.index inside (.refl _)

theorem clear (twin : d.Twin other) : Twin d.clear other.clear := by
  have free : d.clear.free = (List.range d.size).map UInt32.ofNat := if_pos twin.recycle
  have freeOther : other.clear.free = (List.range other.size).map UInt32.ofNat := if_pos twin.recycleOther
  refine ⟨twin.recycle, twin.recycleOther, rfl, fun i record held => ?_, fun i member => ?_, ?_⟩
  · rw [clear_record] at held
    obtain ⟨old, here, rfl⟩ := Option.map_eq_some_iff.mp held
    obtain ⟨oldOther, there, related⟩ := twin.records i old here
    rw [clear_record, there]
    exact ⟨_, rfl, related.kill_if_alive⟩
  · rw [free] at member
    obtain ⟨n, below, rfl⟩ := List.mem_map.mp member
    rw [size_clear, UInt32.toNat_ofNat']
    exact Nat.lt_of_le_of_lt (Nat.mod_le _ _) (List.mem_range.mp below)
  · rw [size_clear, size_clear, free, freeOther]
    cases twin.supply with
    | inl same => exact Or.inl ⟨same.1, by rw [same.1]⟩
    | inr spare =>
        refine Or.inr ⟨size_clear d ▸ spare.room, by rw [size_clear, size_clear, spare.size], ?_, ?_⟩
        · rw [freeOther, free, size_clear, spare.size, List.range_succ, List.map_append]
          rfl
        · obtain ⟨entity, there⟩ := spare.record
          rw [size_clear, clear_record, there]
          exact ⟨entity, rfl⟩

end Changes

section Reserving

structure Issued (x y : Entity × Directory) : Prop where
  handle : y.1 = x.1
  twin : x.2.Twin y.2
  here : Names x.2 x.1
  there : Names y.2 x.1

theorem extend (twin : d.Twin other) {next : Directory} (room : d.size < 0xffffffff) (none : d.free = [])
    (records : ∀ i, next.records[i]? = if i = d.size then some (fresh d.size) else other.records[i]?)
    (size : next.size = d.size + 1) (free : next.free = []) (recycle : next.recycle = true)
    (alive : next.alive = other.alive) :
    Issued (⟨.ofNat d.size, 1⟩, { d with records := d.records.push (fresh d.size) }) (⟨.ofNat d.size, 1⟩, next) := by
  have grown : ({ d with records := d.records.push (fresh d.size) } : Directory).size = d.size + 1 :=
    Array.size_push _
  refine ⟨rfl, ⟨twin.recycle, recycle, alive.trans twin.alive, fun i record held => ?_, fun i member => ?_,
    Or.inl ⟨size.trans grown.symm, free.trans none.symm⟩⟩, ⟨fresh d.size, ?_, rfl⟩, ⟨fresh d.size, ?_, rfl⟩⟩
  · rw [pushed_record] at held
    rw [records]
    by_cases last : i = d.size
    · rw [if_pos last] at held ⊢
      exact ⟨fresh d.size, rfl, Option.some.inj held ▸ .refl _⟩
    · rw [if_neg last] at held ⊢
      exact twin.records i record held
  · rw [show d.free = [] from none] at member
    contradiction
  · rw [pushed_record, toNat_size room, if_pos rfl]
  · rw [records, toNat_size room, if_pos rfl]

-- Where one directory appends a record, the other one appends it too or gives the spare one out.
theorem append (twin : d.Twin other) (none : d.free = []) : Both id Issued d.append other.reserve := by
  cases twin.supply with
  | inl same =>
      rw [reserve_append twin.recycleOther (same.2.trans none), append_bind, append_bind, same.1]
      refine both_bind_same _ fun _ passed => .ok ?_
      have room : d.size < 0xffffffff := of_decide_eq_true (of_require passed)
      refine twin.extend room none (fun i => ?_) ?_ (same.2.trans none) twin.recycleOther rfl
      · rw [pushed_record, same.1]
      · exact (Array.size_push _).trans (congrArg (· + 1) same.1)
  | inr spare =>
      obtain ⟨entity, held⟩ := spare.record
      have popped : other.free = [.ofNat d.size] := by rw [spare.free, none, List.nil_append]
      have heldLast : other.records[(UInt32.ofNat d.size).toNat]? = some ⟨entity, .none, 0, 1, true⟩ := by
        rw [toNat_size spare.room, held]
      rw [append_bind, require_ok _ _ (decide_eq_true spare.room), reserve_pop twin.recycleOther popped heldLast rfl]
      refine .ok (twin.extend spare.room none (fun i => ?_) ?_ rfl twin.recycleOther rfl)
      · have replaced := record_replace (.ofNat d.size) (fresh d.size) _ heldLast i
        rw [toNat_size spare.room] at replaced
        rw [Directory.update, toNat_size spare.room]
        exact replaced
      · exact Array.size_setIfInBounds.trans spare.size

theorem reserve (twin : d.Twin other) : Both id Issued d.reserve other.reserve := by
  cases free : d.free with
  | nil =>
      rw [reserve_append twin.recycle free]
      exact twin.append free
  | cons index rest =>
      obtain ⟨restOther, freeOther, popped⟩ := twin.pop_free free
      have inside : index.toNat < d.size := twin.free index (free ▸ List.mem_cons_self)
      obtain ⟨r, here⟩ : ∃ r, d.records[index.toNat]? = some r := ⟨_, Array.getElem?_eq_getElem inside⟩
      obtain ⟨t, there, related⟩ := twin.records _ r here
      let e : Entity := ⟨index, r.generation⟩
      have named : Record.Twin { r with entity := e } { t with entity := e } := by
        refine ⟨?_, fun _ => rfl⟩
        rw [related.frame]
      have handle : e = ⟨index, t.generation⟩ := by rw [related.generation]
      rw [reserve_pop twin.recycle free here rfl, reserve_pop twin.recycleOther freeOther there handle]
      refine .ok ⟨rfl, popped.update index inside named, ⟨{ r with entity := e }, ?_, rfl⟩,
        ⟨{ t with entity := e }, ?_, rfl⟩⟩
      · exact (record_replace index _ r here _).trans (if_pos rfl)
      · exact (record_replace index _ t there _).trans (if_pos rfl)

theorem place (twin : d.Twin other) (here : Names d e) (there : Names other e) (block : BlockId) (row : Nat) :
    Both id Twin (d.place e block row) (other.place e block row) := by
  obtain ⟨r, held, entity⟩ := here
  obtain ⟨t, heldOther, entityOther⟩ := there
  have inside := (Array.getElem?_eq_some_iff.mp held).1
  rw [Directory.place, Directory.place, held, heldOther, twin.alive]
  simp only [entity, entityOther]
  exact both_bind_same _ fun _ _ => .ok ((twin.recount (d.alive + 1)).update e.index inside (.refl _))

theorem abandon (twin : d.Twin other) (here : Names d e) : Both id Twin (d.abandon e) (other.abandon e) := by
  obtain ⟨r, held, -⟩ := here
  have inside := (Array.getElem?_eq_some_iff.mp held).1
  rw [abandon_bind twin.recycle, abandon_bind twin.recycleOther, twin.is_alive]
  exact both_bind_same _ fun _ _ => .ok (twin.push_free e.index inside)

theorem rename (twin : d.Twin other) (index : UInt32) (there : other.records[index.toNat]? = some t)
    (dead : t.isAlive = false) (e : Entity) : d.Twin (other.update index { t with entity := e }) := by
  cases here : d.records[index.toNat]? with
  | some r =>
      obtain ⟨same, held, related⟩ := twin.records _ r here
      obtain rfl := Option.some.inj (held.symm.trans there)
      have inside := (Array.getElem?_eq_some_iff.mp here).1
      have renamed := twin.update index inside (related.rename dead e)
      rwa [update_same index here] at renamed
  | none =>
      -- It is the spare record.
      have beyond : d.size ≤ index.toNat := Array.getElem?_eq_none_iff.mp here
      have within : index.toNat < other.size := (Array.getElem?_eq_some_iff.mp there).1
      have replaced (i : Nat) : (other.update index { t with entity := e }).records[i]? =
          if i = index.toNat then some { t with entity := e } else other.records[i]? :=
        record_replace index _ t there i
      cases twin.supply with
      | inl same =>
          rw [same.1] at within
          omega
      | inr spare =>
          rw [spare.size] at within
          have last : index.toNat = d.size := by omega
          obtain ⟨entity, held⟩ := spare.record
          rw [last] at there replaced
          obtain rfl := Option.some.inj (held.symm.trans there)
          refine ⟨twin.recycle, twin.recycleOther, twin.alive, fun i r found => ?_, twin.free, Or.inr
            ⟨spare.room, Array.size_setIfInBounds.trans spare.size, spare.free, e, (replaced _).trans (if_pos rfl)⟩⟩
          have low : i < d.size := (Array.getElem?_eq_some_iff.mp found).1
          rw [replaced, if_neg (Nat.ne_of_lt low)]
          exact twin.records i r found

theorem grow (twin : d.Twin other) (room : other.size < 0xffffffff) (none : other.free = []) :
    d.Twin { other with records := other.records.push (fresh other.size), free := [.ofNat other.size] } := by
  cases twin.supply with
  | inr spare =>
      rw [spare.free, List.append_eq_nil_iff] at none
      exact absurd none.2 (List.cons_ne_nil _ _)
  | inl same =>
      refine ⟨twin.recycle, twin.recycleOther, twin.alive, fun i r found => ?_, twin.free, Or.inr
        ⟨same.1 ▸ room, ?_, ?_, ⟨.ofNat other.size, 1⟩, ?_⟩⟩
      · have low : i < d.size := (Array.getElem?_eq_some_iff.mp found).1
        rw [pushed_record, if_neg (by rw [same.1]; exact Nat.ne_of_lt low)]
        exact twin.records i r found
      · exact (Array.size_push _).trans (congrArg (· + 1) same.1)
      · rw [← same.2, none, same.1, List.nil_append]
      · rw [pushed_record, if_pos same.1.symm, fresh]

theorem forgo (twin : d.Twin other) {next final : Directory} (reserved : other.reserve = .ok (e, next))
    (abandoned : next.abandon e = .ok final) : d.Twin final := by
  cases free : other.free with
  | nil =>
      rw [reserve_append twin.recycleOther free, append_bind] at reserved
      obtain ⟨room, same⟩ := (require_bind_iff _ _ _ _).mp reserved
      obtain ⟨rfl, rfl⟩ := Prod.mk.inj (Except.ok.inj same)
      obtain ⟨-, rfl⟩ := of_abandon abandoned twin.recycleOther
      have grown := twin.grow (of_decide_eq_true room) free
      simp only [free]
      exact grown
  | cons index rest =>
      cases there : other.records[index.toNat]? with
      | none =>
          simp [Directory.reserve, twin.recycleOther, free, there] at reserved
      | some t =>
          rw [reserve_pop twin.recycleOther free there rfl] at reserved
          obtain ⟨rfl, rfl⟩ := Prod.mk.inj (Except.ok.inj reserved)
          obtain ⟨unplaced, rfl⟩ := of_abandon abandoned twin.recycleOther
          have dead : t.isAlive = false := by
            rw [Directory.isAlive, get?, Directory.update, record_replace index _ t there,
              if_pos rfl] at unplaced
            simpa [Record.isOf, Record.isAlive] using unplaced
          have renamed := twin.rename index there dead ⟨index, t.generation⟩
          rw [Directory.update, free] at renamed
          exact renamed

end Reserving

end Twin

end Directory

end EntityStore
