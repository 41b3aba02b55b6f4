import EntityStore.Proofs.Store.Bookkeeping

set_option autoImplicit false

namespace EntityStore

namespace Block

open Checked

variable {registry : Registry} {b : Block}

structure Appends (b next : Block) (e : Entity) : Prop extends Planned b next where
  entityCount : next.entityCount = b.entityCount + 1
  disabledStart : next.disabledStart = b.disabledStart
  placed : next.entitySlot b.entityCount = e
  others : ∀ row < b.capacity, row ≠ b.entityCount → next.cellsAt row = b.cellsAt row

theorem push_appends (shaped : b.Shaped registry) (genuine : registry.Genuine)
    (space : b.entityCount < b.disabledStart) (e : Entity) :
    ∃ next, b.push e = .ok (some (b.entityCount, next)) ∧ Appends b next e := by
  have inRange : b.entityCount < b.capacity := Nat.lt_of_lt_of_le space shaped.disabled_le
  obtain ⟨defaults, fit⟩ := new_row_ok genuine shaped.laid e
  obtain ⟨middle, wrote, rows⟩ := write_row_ok shaped.laid b.entityCount inRange _ fit
  refine ⟨{ middle with entityCount := b.entityCount + 1 }, ?_, { rows.planned with
    entityCount := rfl, disabledStart := rows.disabledStart, placed := ?_, others := ?_ }⟩
  · simp only [push, hasSpace, space, decide_true, if_true, defaults, wrote, ok_bind, pure_eq_ok]
  · have written := rows.rows b.entityCount inRange
    rw [if_pos rfl, ← rows.columns] at written
    exact (row_cells middle b.entityCount _ _ written).1.trans (Entity.ofBytes_bytes e)
  · intro row bound away
    exact (rows.rows row bound).trans (if_neg away)

theorem free_row_iff (shaped : b.Shaped registry) :
    (∃ row < b.capacity, b.isOccupied row = false) ↔ b.entityCount < b.disabledStart := by
  have limit := shaped.disabled_le
  simp only [isOccupied, isEnabledRow, isDisabledRow, Bool.or_eq_false_iff, Bool.and_eq_false_iff,
    decide_eq_false_iff_not]
  constructor
  · rintro ⟨row, bound, enabled, disabled⟩
    omega
  · intro space
    exact ⟨b.entityCount, by omega, by omega, by omega⟩

end Block

namespace Store

open Checked

variable {registry : Registry} {s next : Store} {signature : Signature} {id : BlockId} {b : Block}

structure Fits (s : Store) (signature : Signature) (id : BlockId) (b : Block) : Prop where
  live : s.block? id = some b
  signed : b.signature = signature
  free : ∃ row < b.capacity, b.isOccupied row = false

def Prefers : MatchPolicy → BlockId × Block → BlockId × Block → Prop
  | .firstFit, first, other => first.1 ≤ other.1
  | .mostOccupied, first, other => other.2.occupied < first.2.occupied ∨
      other.2.occupied = first.2.occupied ∧ first.1 ≤ other.1

structure Chosen (s : Store) (signature : Signature) (id : BlockId) (b : Block) : Prop extends
    Fits s signature id b where
  preferred : ∀ other block, s.Fits signature other block → Prefers s.policy (id, b) (other, block)

section Candidates

theorem mem_candidates (standing : s.Standing registry) (signature : Signature) (id : BlockId) (b : Block) :
    (id, b) ∈ s.candidates signature ↔ s.Fits signature id b := by
  constructor
  · intro member
    obtain ⟨found, same, space⟩ := candidate_live standing.toBooks member
    exact ⟨found, same, (Block.free_row_iff (standing.shaped _ _ found)).mpr space⟩
  · intro ⟨found, same, free⟩
    have space := (Block.free_row_iff (standing.shaped id b found)).mp free
    rw [candidates, List.mem_filterMap]
    refine ⟨id, (standing.index signature id).mpr ⟨b, found, same⟩, ?_⟩
    rw [found, Option.bind_some, if_pos]
    simpa [Block.hasSpace] using space

theorem candidates_ascend (standing : s.Standing registry) (signature : Signature) :
    (s.candidates signature).Pairwise fun one other => one.1 < other.1 := by
  refine List.Pairwise.filterMap _ ?_ (standing.tidy.ascending signature)
  intro one other before x left y right
  rw [(candidate_eq left).1, (candidate_eq right).1]
  exact before

theorem fullest_none (entries : List (BlockId × Block)) : fullest? entries = none ↔ entries = [] := by
  cases entries with
  | nil => simp [fullest?]
  | cons first rest =>
      rw [fullest?]
      cases fullest? rest with
      | none => simp
      | some best =>
          simp

-- A later block takes over only if it is strictly fuller, so of equal ones the first stays.
theorem fullest_preferred (entries : List (BlockId × Block))
    (ascending : entries.Pairwise fun one other => one.1 < other.1) (best : BlockId × Block)
    (chosen : fullest? entries = some best) : ∀ other ∈ entries, Prefers .mostOccupied best other := by
  induction entries generalizing best with
  | nil => exact fun _ member => absurd member List.not_mem_nil
  | cons first rest ih =>
      obtain ⟨above, ascending⟩ := List.pairwise_cons.mp ascending
      rw [fullest?] at chosen
      rw [List.forall_mem_cons]
      cases later : fullest? rest with
      | none =>
          rw [later] at chosen
          obtain rfl := Option.some.inj chosen
          obtain rfl := (fullest_none rest).mp later
          exact ⟨Or.inr ⟨rfl, Nat.le_refl _⟩, fun _ member => absurd member List.not_mem_nil⟩
      | some champion =>
          have beats := ih ascending champion later
          rw [later] at chosen
          by_cases fuller : first.2.occupied < champion.2.occupied
          · simp only [if_pos fuller] at chosen
            obtain rfl := Option.some.inj chosen
            exact ⟨Or.inl fuller, beats⟩
          · simp only [if_neg fuller] at chosen
            obtain rfl := Option.some.inj chosen
            refine ⟨Or.inr ⟨rfl, Nat.le_refl _⟩, fun other member => ?_⟩
            have before : first.1 < other.1 := above other member
            have bound : other.2.occupied ≤ champion.2.occupied :=
              (beats other member).elim Nat.le_of_lt fun same => Nat.le_of_eq same.1
            have limit : other.2.occupied ≤ first.2.occupied := Nat.le_trans bound (Nat.le_of_not_lt fuller)
            exact (Nat.lt_or_eq_of_le limit).imp_right fun same => ⟨same, Nat.le_of_lt before⟩

theorem with_space_chosen (standing : s.Standing registry) (signature : Signature) (id : BlockId)
    (found : s.withSpace? signature = some id) : ∃ b, s.Chosen signature id b := by
  have ascending := candidates_ascend standing signature
  have fits (entry : BlockId × Block) := mem_candidates standing signature entry.1 entry.2
  rw [withSpace?] at found
  cases policy : s.policy with
  | firstFit =>
      rw [policy] at found
      obtain ⟨first, head, rfl⟩ := Option.map_eq_some_iff.mp found
      obtain ⟨rest, list⟩ := List.head?_eq_some_iff.mp head
      refine ⟨first.2, (fits first).mp (list ▸ List.mem_cons_self), fun other block fit => ?_⟩
      have member := (fits (other, block)).mpr fit
      rw [list] at member ascending
      rw [policy]
      rcases List.mem_cons.mp member with same | later
      · exact Nat.le_of_eq (congrArg Prod.fst same).symm
      · exact Nat.le_of_lt ((List.pairwise_cons.mp ascending).1 _ later)
  | mostOccupied =>
      rw [policy] at found
      obtain ⟨best, fullestOf, rfl⟩ := Option.map_eq_some_iff.mp found
      refine ⟨best.2, (fits best).mp (mem_fullest _ best fullestOf), fun other block fit => ?_⟩
      rw [policy]
      exact fullest_preferred _ ascending best fullestOf _ ((fits (other, block)).mpr fit)

theorem with_space_none (standing : s.Standing registry) (signature : Signature)
    (nothing : s.withSpace? signature = none) (id : BlockId) (b : Block) : ¬ s.Fits signature id b := by
  intro fit
  have member := (mem_candidates standing signature id b).mpr fit
  rw [withSpace?] at nothing
  have empty : s.candidates signature = [] := by
    cases policy : s.policy with
    | firstFit =>
        rw [policy] at nothing
        exact List.head?_eq_none_iff.mp (Option.map_eq_none_iff.mp nothing)
    | mostOccupied =>
        rw [policy] at nothing
        exact (fullest_none _).mp (Option.map_eq_none_iff.mp nothing)
  rw [empty] at member
  exact absurd member List.not_mem_nil

end Candidates

section Acquire

structure Adds (s next : Store) (signature : Signature) (id : BlockId) (b : Block) : Prop where
  slot : s.pool.free = id :: next.pool.free
  vacant : s.block? id = none
  blocks : ∀ q, next.block? q = if q = id then some b else s.block? q
  signed : b.signature = signature
  empty : b.occupied = 0
  count : next.blockCount = s.blockCount + 1
  listed : ∀ other q, q ∈ next.blocksWithSignature other ↔
    q = id ∧ other = signature ∨ q ∈ s.blocksWithSignature other

-- What comes of asking for a block. Where none fits, none is created only if the signature has no layout
-- or if all blocks are in use, and then at most a computed layout is kept; the last case is a layout whose
-- sizes overflow.
inductive Acquires (s : Store) (registry : Registry) (signature : Signature) :
    Checked (Outcome BlockId × Store) → Prop where
  | chosen (id : BlockId) (b : Block) (chosen : s.Chosen signature id b) :
      Acquires s registry signature (.ok (.ok id, s))
  | created (full : ∀ id b, ¬ s.Fits signature id b) (id : BlockId) (b : Block) (next : Store)
      (adds : s.Adds next signature id b) : Acquires s registry signature (.ok (.ok id, next))
  | refused (full : ∀ id b, ¬ s.Fits signature id b) (error : StoreError)
      (reason : Layout.generate signature registry s.capacity s.blockBytes = .ok (.error error) ∨
        error = .outOfSlabs s.pool.capacity ∧ s.blockCount = s.pool.capacity) (next : Store) (learns : Learns s next) :
      Acquires s registry signature (.ok (.error error, next))
  | overflow (full : ∀ id b, ¬ s.Fits signature id b) (fault : Fault)
      (unmade : Layout.generate signature registry s.capacity s.blockBytes = .error fault) :
      Acquires s registry signature (.error fault)

theorem gains_count (standing : s.Standing registry) (gains : Gains s next registry id b) :
    next.blockCount = s.blockCount + 1 := by
  have before := standing.pool.balance
  have after := gains.books.pool.balance
  rw [gains.alike.slots] at after
  rw [gains.takes, List.length_cons] at before
  unfold blockCount
  omega

theorem acquire_acquires (standing : s.Standing registry) (signature : Signature) :
    Acquires s registry signature (s.acquire registry signature) := by
  rw [acquire, with_space_eq standing.toBooks standing.counted, ok_bind]
  cases found : s.withSpace? signature with
  | some id =>
      obtain ⟨b, chosen⟩ := with_space_chosen standing signature id found
      exact .chosen id b chosen
  | none =>
      have full := with_space_none standing signature found
      cases create_block_cases standing.toBooks standing.genuine signature with
      | overflow fault unmade stopped => exact stopped ▸ .overflow full fault unmade
      | layout error unfit refused => exact refused ▸ .refused full error (Or.inl unfit) s (learns_refl s)
      | slabs layout made whole next learns _ refused =>
          exact refused ▸ .refused full _ (Or.inr ⟨rfl, whole⟩) next learns
      | created layout made room id b next done newborn gains =>
          refine done ▸ .created full id b next ⟨gains.takes, gains.vacant, gains.blocks, newborn.signature, ?_,
            gains_count standing gains, fun other q => ?_⟩
          · simp [Block.occupied, Block.disabledCount, newborn.entityCount, newborn.disabledStart,
              newborn.capacity]
          · rw [gains.books.index, standing.index, gains.blocks]
            by_cases here : q = id
            · rw [if_pos here, here, gains.vacant]
              simp [newborn.signature, eq_comm]
            · simp [here]

theorem existing_iff {result : Checked (Outcome BlockId × Store)} (acquires : Acquires s registry signature result) :
    (∃ id b last, result = .ok (.ok id, last) ∧ s.block? id = some b) ↔ ∃ id b, s.Fits signature id b := by
  constructor
  · intro ⟨id, b, last, given, found⟩
    cases acquires with
    | chosen other block chosen => exact ⟨other, block, chosen.toFits⟩
    | created full other block next adds =>
        obtain ⟨same, _⟩ := Prod.mk.inj (Except.ok.inj given)
        obtain rfl := Except.ok.inj same
        exact absurd (adds.vacant.symm.trans found) (by simp)
    | refused full error reason next learns =>
        obtain ⟨same, _⟩ := Prod.mk.inj (Except.ok.inj given)
        contradiction
    | overflow full fault unmade => contradiction
  · intro ⟨id, b, fits⟩
    cases acquires with
    | chosen other block chosen => exact ⟨other, block, s, rfl, chosen.live⟩
    | created full other block next adds => exact absurd fits (full id b)
    | refused full error reason next learns => exact absurd fits (full id b)
    | overflow full fault unmade => exact absurd fits (full id b)

end Acquire

section Insert

inductive Inserts (s : Store) (registry : Registry) (signature : Signature) (e : Entity) :
    Checked (Outcome (BlockId × Nat) × Store) → Prop where
  | placed (id : BlockId) (middle next : Store) (b after : Block)
      (acquired : s.acquire registry signature = .ok (.ok id, middle)) (live : middle.block? id = some b)
      (appends : Block.Appends b after e) (free : next.pool.free = middle.pool.free)
      (blocks : ∀ q, next.block? q = if q = id then some after else middle.block? q) :
      Inserts s registry signature e (.ok (.ok (id, b.entityCount), next))
  | refused (error : StoreError) (next : Store) (acquired : s.acquire registry signature = .ok (.error error, next)) :
      Inserts s registry signature e (.ok (.error error, next))
  | overflow (fault : Fault) (acquired : s.acquire registry signature = .error fault) :
      Inserts s registry signature e (.error fault)

theorem insert_inserts (standing : s.Standing registry) (signature : Signature) (e : Entity) :
    Inserts s registry signature e (s.insert registry signature e) := by
  have served := acquire_served standing signature
  rw [insert]
  cases acquired : s.acquire registry signature with
  | error fault => exact .overflow fault acquired
  | ok result =>
      obtain ⟨outcome, middle⟩ := result
      rw [acquired] at served
      cases outcome with
      | error error => exact .refused error middle acquired
      | ok id =>
          obtain ⟨middleStanding, _, b, found, _, space⟩ := served
          obtain ⟨after, pushed, appends⟩ :=
            Block.push_appends (middleStanding.shaped id b found) middleStanding.genuine space e
          simp only [ok_bind, found, pushed]
          exact .placed id middle _ b after acquired found appends (Pool.set_frame middle.pool id after).2.2
            (block_put found after)

end Insert

theorem create_policy {settings : Settings} (created : create settings = .ok s) : s.policy = settings.blockMatch := by
  rw [create] at created
  cases pool : Pool.create (α := Block) settings.maxBlocks with
  | error fault => simp [pool] at created
  | ok free =>
      cases slab : Slab.create settings.blockBytes settings.maxBlocks with
      | error fault => simp [pool, slab] at created
      | ok buffers =>
          rw [pool, ok_bind, slab] at created
          obtain rfl := Except.ok.inj created
          rfl

/-- In every state that a history of a store leads to, a block is chosen by the policy of the settings
among the blocks that fit, none is created while one fits, and entities are inserted into the block
that would be acquired. -/
theorem operate_all_chooses (settings : Settings) (registry : Registry)
    (valid : settings.validate = .ok ()) (genuine : registry.Genuine) :
    ∃ first, create settings = .ok first ∧ ∀ operations answers s,
      first.operateAll registry operations = .ok (answers, s) → s.policy = settings.blockMatch ∧
        ∀ signature, Acquires s registry signature (s.acquire registry signature) ∧
          ((∃ id b last, s.acquire registry signature = .ok (.ok id, last) ∧ s.block? id = some b) ↔
            ∃ id b, s.Fits signature id b) ∧
          ∀ e, Inserts s registry signature e (s.insert registry signature e) := by
  obtain ⟨first, created, bare⟩ := create_bare settings registry valid
  refine ⟨first, created, fun operations answers s ran => ?_⟩
  have run := operate_all_stays (standing_of_bare valid genuine bare) operations
  rw [ran] at run
  obtain ⟨standing, alike, _⟩ := run
  refine ⟨alike.policy.trans (create_policy created), fun signature => ?_⟩
  have acquires := acquire_acquires standing signature
  exact ⟨acquires, existing_iff acquires, insert_inserts standing signature⟩

def dense : Settings :=
  { blockCapacity := 2, blockBytes := 64, maxBlocks := 3, blockMatch := .mostOccupied }

theorem tied_choice : ∃ first last answers, create dense = .ok first ∧
    first.operateAll .builtins [.create .empty, .create .empty, .create .empty, .rows 1 (.push ⟨0, 1⟩),
      .rows 2 (.push ⟨1, 1⟩)] = .ok (answers, last) ∧
    last.policy = .mostOccupied ∧ Acquires last .builtins .empty (.ok (.ok 1, last)) := by
  obtain ⟨first, last, answers, created, ran, acquired⟩ : ∃ first last answers,
      create dense = .ok first ∧
      first.operateAll .builtins [.create .empty, .create .empty, .create .empty, .rows 1 (.push ⟨0, 1⟩),
        .rows 2 (.push ⟨1, 1⟩)] = .ok (answers, last) ∧
      last.acquire .builtins .empty = .ok (.ok 1, last) := ⟨_, _, _, rfl, rfl, rfl⟩
  obtain ⟨other, made, chooses⟩ := operate_all_chooses dense .builtins (by decide) Registry.builtins_genuine
  obtain rfl := Except.ok.inj (created.symm.trans made)
  obtain ⟨policy, chosen⟩ := chooses _ answers last ran
  have acquires := (chosen .empty).1
  rw [acquired] at acquires
  exact ⟨first, last, answers, created, ran, policy, acquires⟩

end Store

end EntityStore
