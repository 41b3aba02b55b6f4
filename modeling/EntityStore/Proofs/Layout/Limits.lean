import EntityStore.Proofs.Layout.Packing
import EntityStore.Proofs.Settings

set_option autoImplicit false

namespace EntityStore.Layout

open Checked

theorem align_up_limit {start align position : Nat} (positive : 0 < align)
    (nearest : Nearest start align position) :
    Ensures (fun fault => Excess fault ∧ sizeLimit ≤ position) (alignUp start align)
      fun found => found = position := by
  rw [alignUp, if_neg (Nat.ne_of_gt positive)]
  by_cases even : start % align = 0
  · rw [if_pos even]
    exact nearest_unique (nearest_even even) nearest
  · obtain rfl := nearest_unique nearest (nearest_uneven positive even)
    rw [if_neg even]
    exact ensures_mono (add_limit _ _) (fun _ excess => excess) fun _ sum => sum.1

def Aligned (registry : Registry) (ids : List ComponentId) : Prop :=
  ∀ id ∈ ids, ∀ d, registry.get? id = some d → 0 < d.align

def Within (registry : Registry) (capacity start : Nat) (ids : List ComponentId) : Prop :=
  ∀ part columns stop, part <+: ids → Packed registry capacity start part columns stop → stop < sizeLimit

inductive Stops (registry : Registry) (capacity start : Nat) (ids : List ComponentId) : Fault → Prop where
  | unaligned (id : ComponentId) (d : Descriptor) (member : id ∈ ids)
      (registered : registry.get? id = some d) (zero : d.align = 0) :
      Stops registry capacity start ids .zeroAlignment
  | excess (fault : Fault) (excess : Excess fault) (part : List ComponentId) (columns : List Column)
      (stop : Nat) (early : part <+: ids) (packed : Packed registry capacity start part columns stop)
      (large : sizeLimit ≤ stop) : Stops registry capacity start ids fault

inductive Places (registry : Registry) (capacity start : Nat) (ids : List ComponentId) :
    Outcome (List Column × Nat) → Prop where
  | all (columns : List Column) (total : Nat)
      (packed : Packed registry capacity start ids columns total) :
      Places registry capacity start ids (.ok (columns, total))
  | missing (before after : List ComponentId) (id : ComponentId) (split : ids = before ++ id :: after)
      (registered : ∀ other ∈ before, registry.get? other ≠ none) (unknown : registry.get? id = none) :
      Places registry capacity start ids (.error (.unregisteredComponent id))

section Place

variable {registry : Registry} {capacity start offset : Nat} {id : ComponentId} {d : Descriptor}
  {ids : List ComponentId}

theorem within_nil (small : start < sizeLimit) : Within registry capacity start [] := by
  intro part columns stop early packed
  obtain rfl := List.prefix_nil.mp early
  cases packed
  exact small

theorem within_unknown (small : start < sizeLimit) (unknown : registry.get? id = none) :
    Within registry capacity start (id :: ids) := by
  intro part columns stop early packed
  cases packed with
  | done => exact small
  | column _ _ other rest c columns registered nearest packed =>
      obtain ⟨rfl, _⟩ := List.cons_prefix_cons.mp early
      rw [unknown] at registered
      contradiction

theorem within_column (small : start < sizeLimit) (registered : registry.get? id = some d)
    (nearest : Nearest start d.align offset)
    (within : Within registry capacity (offset + capacity * d.size) ids) :
    Within registry capacity start (id :: ids) := by
  intro part columns stop early packed
  cases packed with
  | done => exact small
  | column _ _ other rest c columns found closest packed =>
      obtain ⟨rfl, follows⟩ := List.cons_prefix_cons.mp early
      obtain rfl := Option.some.inj (registered.symm.trans found)
      rw [nearest_unique closest nearest] at packed
      exact within rest columns stop follows packed

theorem stops_column (registered : registry.get? id = some d) (nearest : Nearest start d.align offset)
    {fault : Fault} (stops : Stops registry capacity (offset + capacity * d.size) ids fault) :
    Stops registry capacity start (id :: ids) fault := by
  cases stops with
  | unaligned other e member found zero =>
      exact .unaligned other e (List.mem_cons_of_mem id member) found zero
  | excess _ excess part columns stop early packed large =>
      exact .excess fault excess (id :: part) (⟨offset, d⟩ :: columns) stop
        (List.cons_prefix_cons.mpr ⟨rfl, early⟩)
        (.column start stop id part ⟨offset, d⟩ columns registered nearest packed) large

theorem stops_large (registered : registry.get? id = some d) (nearest : Nearest start d.align offset)
    (large : sizeLimit ≤ offset + capacity * d.size) {fault : Fault} (excess : Excess fault) :
    Stops registry capacity start (id :: ids) fault :=
  stops_column registered nearest (.excess fault excess [] [] _ List.nil_prefix (.done _) large)

theorem places_column (registered : registry.get? id = some d) (nearest : Nearest start d.align offset)
    {placed : Outcome (List Column × Nat)}
    (places : Places registry capacity (offset + capacity * d.size) ids placed) :
    Places registry capacity start (id :: ids)
      (placed.map fun (columns, total) => (⟨offset, d⟩ :: columns, total)) := by
  cases places with
  | all columns total packed =>
      exact .all _ total (.column start total id ids ⟨offset, d⟩ columns registered nearest packed)
  | missing before after other split known unknown =>
      refine .missing (id :: before) after other (congrArg (id :: ·) split) ?_ unknown
      exact List.forall_mem_cons.mpr ⟨by simp [registered], known⟩

-- Ids that are registered come before those that are not, so each of them is placed or stops the
-- placement.
theorem place_columns_limits (registry : Registry) (capacity start : Nat) (ids : List ComponentId)
    (small : start < sizeLimit)
    (dense : ids.Pairwise fun a b => registry.get? a = none → registry.get? b = none) :
    Ensures (Stops registry capacity start ids) (placeColumns registry capacity start ids)
      fun placed => Aligned registry ids ∧ Within registry capacity start ids ∧
        Places registry capacity start ids placed := by
  induction ids generalizing start with
  | nil => exact ⟨fun id member => by simp at member, within_nil small, .all [] start (.done start)⟩
  | cons id rest ih =>
      obtain ⟨later, dense⟩ := List.pairwise_cons.mp dense
      rw [placeColumns]
      cases registered : registry.get? id with
      | none =>
          simp only [Registry.find, registered]
          refine ⟨fun other member d found => ?_, within_unknown small registered,
            .missing [] rest id rfl (by simp) registered⟩
          rcases List.mem_cons.mp member with rfl | member
          · rw [registered] at found
            contradiction
          · rw [later other member registered] at found
            contradiction
      | some d =>
          simp only [Registry.find, registered]
          by_cases zero : d.align = 0
          · rw [zero, alignUp, if_pos rfl]
            exact .unaligned id d List.mem_cons_self registered zero
          · have positive := Nat.pos_of_ne_zero zero
            obtain ⟨offset, nearest⟩ := exists_nearest start positive
            refine ensures_bind _ (ensures_mono (align_up_limit positive nearest) ?_ fun _ same => same) ?_
            · rintro fault ⟨excess, large⟩
              exact stops_large registered nearest (Nat.le_add_right_of_le large) excess
            intro position same
            rw [same]
            refine ensures_bind _ (ensures_mono (mul_limit d.size capacity) ?_ fun _ same => same) ?_
            · rintro fault ⟨excess, large⟩
              rw [Nat.mul_comm] at large
              exact stops_large registered nearest (Nat.le_add_left_of_le large) excess
            intro bytes same
            rw [same, Nat.mul_comm d.size]
            refine ensures_bind _ (ensures_mono (add_limit offset (capacity * d.size)) ?_ fun _ sum => sum) ?_
            · rintro fault ⟨excess, large⟩
              exact stops_large registered nearest large excess
            rintro _ ⟨rfl, room⟩
            refine ensures_bind _ (ensures_mono (ih _ room dense)
              (fun _ => stops_column registered nearest) fun _ placed => placed) ?_
            rintro placed ⟨aligned, within, places⟩
            refine ⟨fun other member e found => ?_, within_column small registered nearest within,
              places_column registered nearest places⟩
            rcases List.mem_cons.mp member with rfl | member
            · obtain rfl := Option.some.inj (registered.symm.trans found)
              exact positive
            · exact aligned other member e found

end Place

inductive Answers (registry : Registry) (signature : Signature) (capacity blockBytes : Nat) :
    Outcome Layout → Prop where
  | laid (layout : Layout) (exact : Exact registry signature capacity layout)
      (fits : layout.totalBytes ≤ blockBytes) : Answers registry signature capacity blockBytes (.ok layout)
  | large (layout : Layout) (exact : Exact registry signature capacity layout)
      (large : blockBytes < layout.totalBytes) : Answers registry signature capacity blockBytes
        (.error (.layoutTooLarge layout.totalBytes blockBytes))
  | missing (id : ComponentId) (wanted : signature.contains id = true) (unknown : registry.get? id = none)
      (lowest : ∀ other, signature.contains other = true → registry.get? other = none → id ≤ other) :
      Answers registry signature capacity blockBytes (.error (.unregisteredComponent id))

section Generate

variable {registry : Registry} {signature : Signature} {capacity : Nat}

theorem ids_dense (registry : Registry) (signature : Signature) :
    signature.ids.Pairwise fun a b => registry.get? a = none → registry.get? b = none := by
  refine signature.ids_ascend.imp fun {a b} before unknown => ?_
  exact List.getElem?_eq_none (Nat.le_trans (List.getElem?_eq_none_iff.mp unknown) (Nat.le_of_lt before))

theorem missing_lowest {before after : List ComponentId} {id : ComponentId}
    (split : signature.ids = before ++ id :: after)
    (registered : ∀ other ∈ before, registry.get? other ≠ none) (other : ComponentId)
    (wanted : signature.contains other = true) (unknown : registry.get? other = none) : id ≤ other := by
  have ascending := signature.ids_ascend
  have listed := (signature.mem_ids other).mpr wanted
  rw [split] at ascending listed
  rcases List.mem_append.mp listed with early | late
  · exact absurd unknown (registered other early)
  · rcases List.mem_cons.mp late with rfl | later
    · exact Nat.le_refl _
    · exact le_of_lt ((List.pairwise_cons.mp (List.pairwise_append.mp ascending).2.1).1 other later)

theorem places_answers (built : registry.Built) (blockBytes : Nat) {placed : Outcome (List Column × Nat)}
    (places : Places registry capacity (Entity.width * capacity) signature.ids placed) :
    Answers registry signature capacity blockBytes (placed.bind fun (columns, total) =>
      if blockBytes < total then .error (.layoutTooLarge total blockBytes)
      else .ok ⟨signature, capacity, columns, total⟩) := by
  cases places with
  | all columns total packed =>
      have slots (id : ComponentId) (d : Descriptor) (found : registry.get? id = some d) : d.id = id :=
        Fin.ext (Registry.built_entry registry built id.val d found).id
      have exact := packed_exact slots packed
      by_cases large : blockBytes < total
      · simp only [Except.bind, if_pos large]
        exact .large _ exact large
      · simp only [Except.bind, if_neg large]
        exact .laid _ exact (Nat.le_of_not_lt large)
  | missing before after id split registered unknown =>
      have wanted := (signature.mem_ids id).mp (split ▸ List.mem_append_right before List.mem_cons_self)
      exact .missing id wanted unknown (missing_lowest split registered)

theorem generate_ensures (built : registry.Built) (signature : Signature) (capacity blockBytes : Nat)
    (handles : Entity.width * capacity < sizeLimit) :
    Ensures (Stops registry capacity (Entity.width * capacity) signature.ids)
      (generate signature registry capacity blockBytes) fun outcome =>
        Aligned registry signature.ids ∧ Measurable registry signature capacity ∧
          Answers registry signature capacity blockBytes outcome := by
  rw [generate, mul_ok _ _ handles, ok_bind]
  refine ensures_bind _ (place_columns_limits registry capacity _ signature.ids handles
    (ids_dense registry signature)) ?_
  rintro placed ⟨aligned, within, places⟩
  have answers := places_answers built blockBytes places
  cases placed with
  | error error => exact ⟨aligned, within, answers⟩
  | ok result =>
      by_cases large : blockBytes < result.2
      · simp only [Except.bind, if_pos large] at answers ⊢
        exact ⟨aligned, within, answers⟩
      · simp only [Except.bind, if_neg large] at answers ⊢
        exact ⟨aligned, within, answers⟩

theorem stops_reason {fault : Fault}
    (stops : Stops registry capacity (Entity.width * capacity) signature.ids fault) :
    fault = .zeroAlignment ∧ (∃ id d, signature.contains id = true ∧ registry.get? id = some d ∧
      d.align = 0) ∨ Excess fault ∧ ¬ Measurable registry signature capacity := by
  cases stops with
  | unaligned id d member registered zero =>
      exact Or.inl ⟨rfl, id, d, (signature.mem_ids id).mp member, registered, zero⟩
  | excess _ excess part columns stop early packed large =>
      exact Or.inr ⟨excess, fun measurable =>
        Nat.not_lt.mpr large (measurable part columns stop early packed)⟩

/-- For all descriptors that a registry takes and all valid settings, a layout is computed exactly if
all registered ids of the signature have an alignment that is not zero and all positions up to the last
of them are sizes of 64 bits. The answer is then the exact layout, that the exact layout is too large,
with the number of its bytes, or the lowest id that is not registered. Otherwise no answer is given: the
computation is stopped by the alignment, or by a sum or product that is too large. -/
theorem generate_limits (registry : Registry) (built : registry.Built) (settings : Settings)
    (valid : settings.validate = .ok ()) (signature : Signature) :
    ((∃ outcome, generate signature registry settings.blockCapacity settings.blockBytes = .ok outcome) ↔
      (∀ id d, signature.contains id = true → registry.get? id = some d → 0 < d.align) ∧
        Measurable registry signature settings.blockCapacity) ∧
    (∀ outcome, generate signature registry settings.blockCapacity settings.blockBytes = .ok outcome →
      Answers registry signature settings.blockCapacity settings.blockBytes outcome) ∧
    ∀ fault, generate signature registry settings.blockCapacity settings.blockBytes = .error fault →
      fault = .zeroAlignment ∧ (∃ id d, signature.contains id = true ∧ registry.get? id = some d ∧
        d.align = 0) ∨
      Excess fault ∧ ¬ Measurable registry signature settings.blockCapacity := by
  have ensured := generate_ensures built signature settings.blockCapacity settings.blockBytes
    (settings.valid_handles valid)
  cases generated : generate signature registry settings.blockCapacity settings.blockBytes with
  | ok outcome =>
      rw [generated] at ensured
      obtain ⟨aligned, measurable, answers⟩ := ensured
      have positive (id : ComponentId) (d : Descriptor) (wanted : signature.contains id = true) :=
        aligned id ((signature.mem_ids id).mpr wanted) d
      refine ⟨⟨fun _ => ⟨positive, measurable⟩, fun _ => ⟨outcome, rfl⟩⟩, ?_, fun fault stopped => ?_⟩
      · intro _ same
        exact Except.ok.inj same ▸ answers
      · contradiction
  | error fault =>
      rw [generated] at ensured
      have reason := stops_reason ensured
      refine ⟨⟨?_, ?_⟩, fun outcome computed => ?_, fun _ same => Except.error.inj same ▸ reason⟩
      · rintro ⟨outcome, computed⟩
        contradiction
      · rintro ⟨aligned, measurable⟩
        rcases reason with ⟨_, id, d, wanted, registered, zero⟩ | ⟨_, unmeasured⟩
        · exact absurd zero (Nat.ne_of_gt (aligned id d wanted registered))
        · exact absurd measurable unmeasured
      · contradiction

def twoRows : Settings := { blockCapacity := 2, blockBytes := 64 }

theorem generate_limits_uneven : ∃ layout, Exact uneven (.ofList [1, 0]) 2 layout ∧
    generate (.ofList [1, 0]) uneven 2 64 = .ok (.ok layout) ∧ Measurable uneven (.ofList [1, 0]) 2 := by
  obtain ⟨computed, answers, _⟩ := generate_limits uneven uneven_built twoRows rfl (.ofList [1, 0])
  obtain ⟨layout, made⟩ : ∃ layout, generate (.ofList [1, 0]) uneven 2 64 = .ok (.ok layout) := ⟨_, rfl⟩
  cases answers (.ok layout) made with
  | laid _ exact fits => exact ⟨layout, exact, made, (computed.mp ⟨_, made⟩).2⟩

def lone (size align : Nat) : Registry := ⟨[{ Descriptor.ofType .transform true with size, align }]⟩

-- No error is told of a column of more bytes than can be counted, nor of one without an alignment.
theorem lone_stops : (lone 0x8000000000000000 4).Built ∧ (lone 4 0).Built ∧ twoRows.validate = .ok () ∧
    generate (.ofList [0]) (lone 0x8000000000000000 4) twoRows.blockCapacity twoRows.blockBytes =
      .error .productOverflow ∧
    generate (.ofList [0]) (lone 4 0) twoRows.blockCapacity twoRows.blockBytes = .error .zeroAlignment :=
  ⟨@Registry.Built.insert _ _ { Descriptor.ofType .transform true with size := 0x8000000000000000, align := 4 }
      .empty rfl,
    @Registry.Built.insert _ _ { Descriptor.ofType .transform true with size := 4, align := 0 } .empty rfl,
    rfl, rfl, rfl⟩

end Generate

end EntityStore.Layout
