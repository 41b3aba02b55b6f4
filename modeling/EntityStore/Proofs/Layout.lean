import EntityStore.Block.Basic
import EntityStore.Proofs.Checked
import EntityStore.Proofs.Registry

set_option autoImplicit false

namespace EntityStore.Layout

open Checked

theorem align_up_ok (n align m : Nat) (aligned : alignUp n align = .ok m) :
    n ≤ m ∧ m % align = 0 := by
  unfold alignUp at aligned
  by_cases zero : align = 0
  · simp [zero] at aligned
  · rw [if_neg zero] at aligned
    by_cases already : n % align = 0
    · rw [if_pos already] at aligned
      have same := Except.ok.inj aligned
      subst same
      exact ⟨Nat.le_refl n, already⟩
    · rw [if_neg already, add] at aligned
      by_cases bound : n + (align - n % align) < sizeLimit
      · rw [if_pos bound] at aligned
        have same := Except.ok.inj aligned
        have below : n % align < align := Nat.mod_lt n (Nat.pos_of_ne_zero zero)
        have parts : align * (n / align) + n % align = n := Nat.div_add_mod n align
        have whole : m = align * (n / align + 1) := by
          rw [Nat.mul_add, Nat.mul_one]
          omega
        exact ⟨by omega, by rw [whole, Nat.mul_mod_right]⟩
      · simp [bound] at aligned

-- Columns one after the other between two positions.
structure Stacked (registry : Registry) (capacity start stop : Nat) (columns : List Column) :
    Prop where
  known : ∀ c ∈ columns, registry.get? c.descriptor.id = some c.descriptor
  aligned : ∀ c ∈ columns, c.offset % c.descriptor.align = 0
  inside : ∀ c ∈ columns, start ≤ c.offset ∧ c.offset + capacity * c.descriptor.size ≤ stop
  apart : columns.Pairwise fun c d => c.offset + capacity * c.descriptor.size ≤ d.offset

theorem stacked_cons (registry : Registry) (capacity start stop : Nat) (c : Column)
    (rest : List Column) (known : registry.get? c.descriptor.id = some c.descriptor)
    (aligned : c.offset % c.descriptor.align = 0) (after : start ≤ c.offset)
    (room : c.offset + capacity * c.descriptor.size ≤ stop)
    (stacked : Stacked registry capacity (c.offset + capacity * c.descriptor.size) stop rest) :
    Stacked registry capacity start stop (c :: rest) := by
  refine ⟨?_, ?_, ?_, List.pairwise_cons.mpr ⟨?_, stacked.apart⟩⟩
  · exact List.forall_mem_cons.mpr ⟨known, stacked.known⟩
  · exact List.forall_mem_cons.mpr ⟨aligned, stacked.aligned⟩
  · refine List.forall_mem_cons.mpr ⟨⟨after, room⟩, fun d member => ?_⟩
    have later := stacked.inside d member
    omega
  · exact fun d member => (stacked.inside d member).1

theorem place_columns_ok (registry : Registry) (genuine : registry.Genuine) (capacity : Nat)
    (ids : List ComponentId) (offset : Nat) (columns : List Column) (total : Nat)
    (small : offset < sizeLimit)
    (placed : placeColumns registry capacity offset ids = .ok (.ok (columns, total))) :
    offset ≤ total ∧ total < sizeLimit ∧ columns.map (fun c => c.descriptor.id) = ids ∧
      Stacked registry capacity offset total columns := by
  induction ids generalizing offset columns with
  | nil =>
      have same : [] = columns ∧ offset = total := by simpa [placeColumns] using placed
      obtain ⟨rfl, rfl⟩ := same
      exact ⟨Nat.le_refl _, small, rfl, by constructor <;> simp⟩
  | cons id rest ih =>
      rw [placeColumns] at placed
      cases found : registry.find id with
      | error error => simp [found] at placed
      | ok descriptor =>
          have get := (Registry.find_ok registry id descriptor).mp found
          have same := Registry.entry_id registry genuine id descriptor get
          cases aligned : alignUp offset descriptor.align with
          | error fault => simp [found, aligned] at placed
          | ok start =>
              obtain ⟨after, multiple⟩ := align_up_ok offset descriptor.align start aligned
              by_cases bytes : descriptor.size * capacity < sizeLimit
              · by_cases sum : start + descriptor.size * capacity < sizeLimit
                · simp only [found, aligned, mul_ok _ _ bytes, add_ok _ _ sum, ok_bind] at placed
                  cases others : placeColumns registry capacity
                      (start + descriptor.size * capacity) rest with
                  | error fault => simp [others] at placed
                  | ok outcome =>
                      cases outcome with
                      | error error => simp [others, Except.map] at placed
                      | ok result =>
                          obtain ⟨tail, stop⟩ := result
                          have parts : ⟨start, descriptor⟩ :: tail = columns ∧ stop = total := by
                            simpa [others, Except.map] using placed
                          obtain ⟨rfl, rfl⟩ := parts
                          obtain ⟨below, limited, ids, stacked⟩ := ih _ tail sum others
                          rw [Nat.mul_comm] at below stacked
                          refine ⟨by omega, limited, by simp [ids, same], ?_⟩
                          exact stacked_cons registry capacity offset stop _ tail
                            (by rw [same]; exact get) multiple after below stacked
                · simp [found, aligned, mul_ok _ _ bytes, add, sum] at placed
              · simp [found, aligned, mul, bytes] at placed

theorem place_columns_expected (registry : Registry) (capacity : Nat) (ids : List ComponentId)
    (offset : Nat) {error : StoreError}
    (refused : placeColumns registry capacity offset ids = .ok (.error error)) : error.Expected := by
  induction ids generalizing offset with
  | nil => simp [placeColumns] at refused
  | cons id rest ih =>
      rw [placeColumns] at refused
      cases found : registry.find id with
      | error other =>
          simp only [found, Except.ok.injEq, Except.error.injEq] at refused
          exact refused ▸ Registry.find_expected found
      | ok descriptor =>
          simp only [found] at refused
          cases aligned : alignUp offset descriptor.align with
          | error fault => simp [aligned] at refused
          | ok start =>
              cases bytes : mul descriptor.size capacity with
              | error fault => simp [aligned, bytes] at refused
              | ok length =>
                  cases sum : add start length with
                  | error fault => simp [aligned, bytes, sum] at refused
                  | ok stop =>
                      simp only [aligned, bytes, sum, ok_bind] at refused
                      cases others : placeColumns registry capacity stop rest with
                      | error fault => simp [others] at refused
                      | ok outcome =>
                          cases outcome with
                          | ok placed => simp [others, Except.map] at refused
                          | error other =>
                              simp only [others, ok_bind, pure_eq_ok, Except.map, Except.ok.injEq,
                                Except.error.injEq] at refused
                              exact ih stop (refused ▸ others)

theorem generate_expected (registry : Registry) (signature : Signature) (capacity blockBytes : Nat)
    {error : StoreError}
    (refused : generate signature registry capacity blockBytes = .ok (.error error)) :
    error.Expected := by
  unfold generate at refused
  cases handles : mul Entity.width capacity with
  | error fault => simp [handles] at refused
  | ok entityBytes =>
      simp only [handles, ok_bind] at refused
      cases placed : placeColumns registry capacity entityBytes signature.ids with
      | error fault => simp [placed] at refused
      | ok outcome =>
          cases outcome with
          | error other =>
              simp only [placed, ok_bind, pure_eq_ok, Except.ok.injEq, Except.error.injEq] at refused
              exact refused ▸ place_columns_expected registry capacity _ _ placed
          | ok result =>
              by_cases large : blockBytes < result.2
              · simp only [placed, ok_bind, if_pos large, pure_eq_ok, Except.ok.injEq,
                  Except.error.injEq] at refused
                exact fun _ => by simp [← refused]
              · simp [placed, large] at refused

structure Laid (registry : Registry) (signature : Signature) (capacity size : Nat)
    (columns : List Column) : Prop where
  known : ∀ c ∈ columns, registry.get? c.descriptor.id = some c.descriptor
  listed : columns.map (fun c => c.descriptor.id) = signature.ids
  aligned : ∀ c ∈ columns, c.offset % c.descriptor.align = 0
  inside : ∀ s ∈ Block.entitySpan :: columns.map Column.span, s.offset + capacity * s.size ≤ size
  small : ∀ s ∈ Block.entitySpan :: columns.map Column.span,
    s.offset + capacity * s.size < sizeLimit
  apart : (Block.entitySpan :: columns.map Column.span).Pairwise fun s t =>
    s.offset + capacity * s.size ≤ t.offset

theorem stacked_laid (registry : Registry) (signature : Signature) (capacity size total : Nat)
    (columns : List Column) (listed : columns.map (fun c => c.descriptor.id) = signature.ids)
    (stacked : Stacked registry capacity (Entity.width * capacity) total columns)
    (room : Entity.width * capacity ≤ total) (fits : total ≤ size) (small : total < sizeLimit) :
    Laid registry signature capacity size columns := by
  have bound : ∀ s ∈ Block.entitySpan :: columns.map Column.span,
      s.offset + capacity * s.size ≤ total := by
    refine List.forall_mem_cons.mpr ⟨?_, List.forall_mem_map.mpr fun c member => ?_⟩
    · rw [Nat.mul_comm] at room
      simpa [Block.entitySpan] using room
    · exact (stacked.inside c member).2
  refine ⟨stacked.known, listed, stacked.aligned, fun s member => ?_, fun s member => ?_, ?_⟩
  · exact Nat.le_trans (bound s member) fits
  · exact Nat.lt_of_le_of_lt (bound s member) small
  · refine List.pairwise_cons.mpr ⟨List.forall_mem_map.mpr fun c member => ?_, ?_⟩
    · have first := (stacked.inside c member).1
      rw [Nat.mul_comm] at first
      simpa [Block.entitySpan, Column.span] using first
    · exact List.pairwise_map.mpr stacked.apart

theorem generate_laid (registry : Registry) (genuine : registry.Genuine) (signature : Signature)
    (capacity blockBytes : Nat) (layout : Layout)
    (made : generate signature registry capacity blockBytes = .ok (.ok layout)) :
    layout.signature = signature ∧ layout.capacity = capacity ∧ layout.totalBytes ≤ blockBytes ∧
      Laid registry signature capacity blockBytes layout.columns := by
  unfold generate at made
  by_cases handles : Entity.width * capacity < sizeLimit
  · rw [mul_ok _ _ handles, ok_bind] at made
    cases placed : placeColumns registry capacity (Entity.width * capacity) signature.ids with
    | error fault => simp [placed] at made
    | ok outcome =>
        cases outcome with
        | error error => simp [placed] at made
        | ok result =>
            obtain ⟨columns, total⟩ := result
            obtain ⟨room, small, listed, stacked⟩ :=
              place_columns_ok registry genuine capacity _ _ columns total handles placed
            by_cases large : blockBytes < total
            · simp [placed, large] at made
            · have same : (⟨signature, capacity, columns, total⟩ : Layout) = layout := by
                simpa [placed, large] using made
              subst same
              have fits : total ≤ blockBytes := Nat.le_of_not_lt large
              exact ⟨rfl, rfl, fits,
                stacked_laid registry signature capacity blockBytes total columns listed stacked
                  room fits small⟩
  · simp [mul, handles] at made

theorem generate_room (registry : Registry) (signature : Signature) (capacity blockBytes : Nat)
    (layout : Layout) (made : generate signature registry capacity blockBytes = .ok (.ok layout))
    (size : Nat) (room : layout.totalBytes ≤ size) :
    generate signature registry capacity size = .ok (.ok layout) := by
  unfold generate at made ⊢
  cases handles : mul Entity.width capacity with
  | error fault => simp [handles] at made
  | ok entityBytes =>
      simp only [handles, ok_bind] at made ⊢
      cases placed : placeColumns registry capacity entityBytes signature.ids with
      | error fault => simp [placed] at made
      | ok outcome =>
          cases outcome with
          | error error => simp [placed] at made
          | ok result =>
              obtain ⟨columns, total⟩ := result
              by_cases large : blockBytes < total
              · simp [placed, large] at made
              · have same : (⟨signature, capacity, columns, total⟩ : Layout) = layout := by
                  simpa [placed, large] using made
                subst same
                simp only [ok_bind, if_neg (Nat.not_lt.mpr room)]
                rfl

end EntityStore.Layout
