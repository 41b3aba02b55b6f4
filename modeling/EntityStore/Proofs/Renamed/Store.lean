import EntityStore.Proofs.Renamed.Block
import EntityStore.Proofs.Slab
import EntityStore.Proofs.Store.Books
import EntityStore.Proofs.Store.Scan

set_option autoImplicit false

namespace EntityStore

open Checked

variable {ρ : Entity → Entity}

namespace Pool

variable {α : Type} {R : α → α → Prop} {p other : Pool α} {slot : Nat}

structure Renamed (R : α → α → Prop) (p other : Pool α) : Prop where
  capacity : other.slots.size = p.slots.size
  free : other.free = p.free
  allocated : other.allocated = p.allocated
  values : ∀ slot, Option.Rel R (p.get? slot) (other.get? slot)

theorem Renamed.replace (renamed : Renamed R p other) (bound : slot < p.slots.size) {x y : Option α}
    (related : Option.Rel R x y) (free : List Nat) (allocated : Nat) :
    Renamed R ⟨p.slots.setIfInBounds slot x, free, allocated⟩
      ⟨other.slots.setIfInBounds slot y, free, allocated⟩ := by
  refine ⟨by simp [renamed.capacity], rfl, rfl, fun q => ?_⟩
  rw [get_replace _ _ _ _ bound, get_replace _ _ _ _ (renamed.capacity ▸ bound)]
  by_cases here : q = slot
  · rw [if_pos here, if_pos here]
    exact related
  · rw [if_neg here, if_neg here]
    exact renamed.values q

theorem Renamed.set (renamed : Renamed R p other) {x y : α} (related : R x y) :
    Renamed R (p.set slot x) (other.set slot y) := by
  have values := renamed.values slot
  have free := renamed.free
  have allocated := renamed.allocated
  rw [Pool.set, Pool.set]
  cases held : p.get? slot with
  | none =>
      rw [held] at values
      generalize other.get? slot = found at values
      cases values
      exact renamed
  | some old =>
      rw [held] at values
      generalize other.get? slot = found at values
      cases values
      have replaced := renamed.replace (get_in_range p slot old held) (.some related) p.free p.allocated
      rw [← free, ← allocated] at replaced
      exact free ▸ allocated ▸ replaced

def Allocated (R : α → α → Prop) : Except α (Nat × Pool α) → Except α (Nat × Pool α) → Prop
  | .error x, .error y => R x y
  | .ok x, .ok y => y.1 = x.1 ∧ Renamed R x.2 y.2
  | _, _ => False

theorem Renamed.allocate (renamed : Renamed R p other) {x y : α} (related : R x y) :
    Both ρ (Allocated R) (p.allocate x) (other.allocate y) := by
  rw [Pool.allocate, Pool.allocate, renamed.free, renamed.capacity, renamed.allocated]
  cases p.free with
  | nil => exact .ok related
  | cons slot rest =>
      by_cases bound : slot < p.slots.size
      · simp only [if_pos bound]
        exact .ok ⟨rfl, renamed.replace bound (.some related) rest (p.allocated + 1)⟩
      · simp only [if_neg bound]
        exact .error (.same _)

theorem Renamed.release (renamed : Renamed R p other) (slot : Nat) :
    Both ρ (Option.Rel fun x y => R x.1 y.1 ∧ Renamed R x.2 y.2) (p.release slot) (other.release slot) := by
  have values := renamed.values slot
  rw [Pool.release, Pool.release]
  cases held : p.get? slot with
  | none =>
      rw [held] at values
      generalize other.get? slot = found at values
      cases values
      exact .ok .none
  | some old =>
      rw [held] at values
      generalize other.get? slot = found at values
      cases values with
      | some related =>
          rw [renamed.allocated, renamed.free]
          refine both_bind_same _ fun allocated _ => .ok (.some ⟨related, ?_⟩)
          exact renamed.replace (get_in_range p slot old held) .none (slot :: p.free) allocated

theorem Renamed.get_pair (renamed : Renamed R p other) (first second : Nat) :
    Option.Rel (fun x y => R x.1 y.1 ∧ R x.2 y.2) (p.getPair? first second) (other.getPair? first second) := by
  have one := renamed.values first
  have two := renamed.values second
  rw [getPair?, getPair?]
  by_cases same : first = second
  · rw [if_pos same, if_pos same]
    exact .none
  · rw [if_neg same, if_neg same]
    generalize p.get? first = x at one
    generalize other.get? first = y at one
    generalize p.get? second = z at two
    generalize other.get? second = w at two
    cases one with
    | none => exact .none
    | some one =>
        cases two with
        | none => exact .none
        | some two => exact .some ⟨one, two⟩

end Pool

namespace Slab

structure Alike (s other : Slab) : Prop where
  frame : other = { s with pooled := other.pooled }
  clean : s.Clean
  cleanOther : other.Clean

variable {s other : Slab}

theorem alike_of (bytes : other.bufferBytes = s.bufferBytes) (capacity : other.capacity = s.capacity)
    (outstanding : other.outstanding = s.outstanding) (clean : s.Clean) (cleanOther : other.Clean) :
    Alike s other := by
  cases s
  cases other
  subst bytes capacity outstanding
  exact ⟨rfl, clean, cleanOther⟩

theorem alike_allocate (alike : Alike s other) :
    Option.Rel (fun x y => x.1 = .zeroed s.bufferBytes ∧ y.1 = x.1 ∧ Alike x.2 y.2) s.allocate
      other.allocate := by
  have clean := alike.cleanOther
  rw [alike.frame] at clean ⊢
  cases taken : s.allocate with
  | none =>
      have full := allocate_none taken
      rw [allocate, if_pos full]
      exact .none
  | some x =>
      obtain ⟨zeroed, cleanNext, bytes, capacity, outstanding, room⟩ := allocate_some alike.clean x.1 x.2 taken
      cases lent : ({ s with pooled := other.pooled } : Slab).allocate with
      | none => exact absurd (allocate_none lent) (Nat.not_le_of_lt room)
      | some y =>
          obtain ⟨zeroedOther, cleanOther, bytesOther, capacityOther, outstandingOther, -⟩ :=
            allocate_some clean y.1 y.2 lent
          exact .some ⟨zeroed, zeroedOther.trans zeroed.symm, alike_of (bytesOther.trans bytes.symm)
            (capacityOther.trans capacity.symm) (outstandingOther.trans outstanding.symm) cleanNext cleanOther⟩

theorem alike_release (alike : Alike s other) {p q : Buffer} (size : q.size = p.size) :
    Both ρ Alike (s.release p) (other.release q) := by
  have clean := alike.cleanOther
  rw [alike.frame] at clean ⊢
  rw [release, release, size]
  refine both_bind_same _ fun _ checked => both_bind_same _ fun _ _ => .ok ⟨rfl, ?_, ?_⟩
  · exact List.forall_mem_cons.mpr ⟨congrArg _ (of_decide_eq_true (of_require checked)), alike.clean⟩
  · exact List.forall_mem_cons.mpr ⟨congrArg _ (of_decide_eq_true (of_require checked)), clean⟩

end Slab

namespace Registry

theorem find_renamed (ρ : Entity → Entity) {registry : Registry} {id : ComponentId} {error : StoreError}
    (refused : registry.find id = .error error) : error.renamed ρ = error := by
  rw [find] at refused
  split at refused
  · contradiction
  · exact Except.error.inj refused ▸ rfl

theorem check_renamed (ρ : Entity → Entity) {registry : Registry} {type : ComponentType} {error : StoreError}
    (refused : registry.check type = .error error) : error.renamed ρ = error := by
  rw [check] at refused
  cases found : registry.find type.id with
  | error other =>
      rw [found] at refused
      exact Except.error.inj refused ▸ find_renamed ρ found
  | ok d =>
      rw [found] at refused
      change (if d.is type then _ else _) = _ at refused
      split at refused
      · contradiction
      · exact Except.error.inj refused ▸ rfl

end Registry

namespace Layout

theorem add_le (a b : Nat) : Ensures (fun _ => True) (Checked.add a b) fun sum => a ≤ sum := by
  rw [Checked.add]
  split
  · exact Nat.le_add_right a b
  · trivial

theorem align_up_le (n align : Nat) :
    Ensures (fun _ => True) (Checked.alignUp n align) fun start => n ≤ start := by
  rw [Checked.alignUp]
  split
  · trivial
  · split
    · exact Nat.le_refl n
    · exact add_le n _

-- Columns are placed one behind the other.
theorem place_columns_behind (registry : Registry) (capacity offset : Nat) (ids : List ComponentId) :
    Ensures (fun _ => True) (placeColumns registry capacity offset ids) fun placed =>
      ∀ columns total, placed = .ok (columns, total) → ∀ c ∈ columns, offset ≤ c.offset := by
  induction ids generalizing offset with
  | nil =>
      rintro columns total same c member
      obtain ⟨rfl, -⟩ := Prod.mk.inj (Except.ok.inj same)
      contradiction
  | cons id rest ih =>
      rw [placeColumns]
      cases registry.find id with
      | error error => exact fun _ _ same => by contradiction
      | ok descriptor =>
          refine ensures_bind _ (align_up_le offset descriptor.align) fun start first => ?_
          refine ensures_bind _ (ensures_any _) fun bytes _ => ?_
          refine ensures_bind _ (add_le start bytes) fun stop further => ?_
          refine ensures_bind _ (ih stop) fun placed later columns total same c member => ?_
          cases placed with
          | error error => contradiction
          | ok found =>
              obtain ⟨rfl, -⟩ := Prod.mk.inj (Except.ok.inj same)
              cases List.mem_cons.mp member with
              | inl here => exact here ▸ first
              | inr deeper =>
                  have beyond := later found.1 found.2 rfl c deeper
                  omega

theorem generate_behind (signature : Signature) (registry : Registry) (capacity blockBytes : Nat) :
    Ensures (fun _ => True) (generate signature registry capacity blockBytes) fun made =>
      ∀ layout, made = .ok layout →
        layout.capacity = capacity ∧ ∀ c ∈ layout.columns, Entity.width * capacity ≤ c.offset := by
  rw [generate, mul]
  by_cases small : Entity.width * capacity < sizeLimit
  · rw [if_pos small, ok_bind]
    refine ensures_bind _ (place_columns_behind registry capacity _ signature.ids) fun placed behind => ?_
    cases placed with
    | error error => exact fun _ same => by contradiction
    | ok found =>
        simp only
        split
        · exact fun _ same => by contradiction
        · intro layout same
          obtain rfl := Except.ok.inj same
          exact ⟨rfl, behind found.1 found.2 rfl⟩
  · rw [if_neg small]
    trivial

theorem place_columns_renamed (ρ : Entity → Entity) (registry : Registry) (capacity offset : Nat)
    (ids : List ComponentId) :
    Ensures (fun _ => True) (placeColumns registry capacity offset ids) fun placed =>
      Outcome.renamed ρ id placed = placed := by
  induction ids generalizing offset with
  | nil => rfl
  | cons id rest ih =>
      rw [placeColumns]
      cases found : registry.find id with
      | error error => exact congrArg Except.error (Registry.find_renamed ρ found)
      | ok descriptor =>
          refine ensures_bind _ (ensures_any _) fun start _ => ensures_bind _ (ensures_any _) fun bytes _ => ?_
          refine ensures_bind _ (ensures_any _) fun stop _ => ensures_bind _ (ih stop) fun placed same => ?_
          cases placed with
          | error error => exact congrArg Except.error (Except.error.inj same)
          | ok placed => rfl

theorem generate_renamed (ρ : Entity → Entity) (signature : Signature) (registry : Registry)
    (capacity blockBytes : Nat) :
    Ensures (fun _ => True) (generate signature registry capacity blockBytes) fun made =>
      Outcome.renamed ρ id made = made := by
  rw [generate]
  refine ensures_bind _ (ensures_any _) fun offset _ => ?_
  refine ensures_bind _ (place_columns_renamed ρ registry capacity offset signature.ids) fun placed same => ?_
  cases placed with
  | error error => exact congrArg Except.error (Except.error.inj same)
  | ok found =>
      simp only
      split <;> rfl

end Layout

namespace Store

-- Stores that differ in handles, waiting buffers, kept layouts and by some generations.
structure Renamed (ρ : Entity → Entity) (shift : UInt64) (registry : Registry) (s other : Store) : Prop where
  frame : other = { s with
    pool := other.pool, slab := other.slab, layouts := other.layouts, generation := s.generation + shift,
    cache := other.cache }
  pool : Pool.Renamed (Block.Sized ρ s.capacity) s.pool other.pool
  slab : Slab.Alike s.slab other.slab
  cache : ∀ q, other.cache.find? q = (s.cache.find? q).map fun kept =>
    { kept with generation := kept.generation + shift }
  -- The layouts that are kept may be those of different signatures.
  recalls : s.Recalls registry
  recallsOther : other.Recalls registry

variable {shift : UInt64} {registry : Registry} {s other : Store}

theorem Renamed.block (renamed : Renamed ρ shift registry s other) (id : BlockId) :
    Option.Rel (Block.Sized ρ s.capacity) (s.block? id) (other.block? id) := renamed.pool.values id

theorem Renamed.put (renamed : Renamed ρ shift registry s other) (id : BlockId) {x y : Block}
    (block : Block.Sized ρ s.capacity x y) : Renamed ρ shift registry (s.put id x) (other.put id y) :=
  ⟨by rw [renamed.frame]; rfl, renamed.pool.set block, renamed.slab, renamed.cache, renamed.recalls, renamed.recallsOther⟩

theorem Renamed.bump (renamed : Renamed ρ shift registry s other) : Renamed ρ shift registry s.bump other.bump := by
  have sum : s.generation + shift + 1 = s.generation + 1 + shift := by
    rw [UInt64.add_assoc, UInt64.add_assoc, UInt64.add_comm shift]
  refine ⟨?_, renamed.pool, renamed.slab, renamed.cache, renamed.recalls, renamed.recallsOther⟩
  rw [Store.bump, renamed.frame, Store.bump, sum]

theorem candidates_renamed (renamed : Renamed ρ shift registry s other) (ids : List BlockId) :
    List.Forall₂ (fun x y => y.1 = x.1 ∧ Block.Sized ρ s.capacity x.2 y.2)
      (ids.filterMap fun id => (s.block? id).bind fun b => if b.hasSpace then some (id, b) else none)
      (ids.filterMap fun id => (other.block? id).bind fun b => if b.hasSpace then some (id, b) else none) := by
  induction ids with
  | nil => exact .nil
  | cons id rest ih =>
      have blocks := renamed.block id
      rw [List.filterMap_cons, List.filterMap_cons]
      generalize s.block? id = x at blocks
      generalize other.block? id = y at blocks
      cases blocks with
      | none => exact ih
      | @some b named sized =>
          have space : named.hasSpace = b.hasSpace := by rw [sized.1.frame]; rfl
          simp only [Option.bind_some, space]
          by_cases free : b.hasSpace = true
          · rw [if_pos free, if_pos free]
            exact .cons ⟨rfl, sized⟩ ih
          · rw [if_neg free, if_neg free]
            exact ih

theorem fullest_renamed {capacity : Nat} {blocks others : List (BlockId × Block)}
    (same : List.Forall₂ (fun x y => y.1 = x.1 ∧ Block.Sized ρ capacity x.2 y.2) blocks others) :
    fullest others = fullest blocks := by
  induction same with
  | nil => rfl
  | @cons x y rest others first _ ih =>
      obtain ⟨id, b⟩ := x
      obtain ⟨_, named⟩ := y
      obtain ⟨rfl, sized⟩ := first
      have sized : Block.Sized ρ capacity b named := sized
      have occupied : named.readOccupied = b.readOccupied := by rw [sized.1.frame]; rfl
      rw [fullest, fullest, ih, occupied]

theorem Renamed.with_space (renamed : Renamed ρ shift registry s other) (signature : Signature) :
    other.withSpace signature = s.withSpace signature := by
  have listed : other.blocksWithSignature signature = s.blocksWithSignature signature := by
    rw [renamed.frame]
    rfl
  have candidates := candidates_renamed renamed (s.blocksWithSignature signature)
  rw [← Store.candidates, ← listed, ← Store.candidates] at candidates
  rw [withSpace, withSpace, show other.policy = s.policy by rw [renamed.frame]]
  generalize s.candidates signature = blocks at candidates ⊢
  generalize other.candidates signature = others at candidates ⊢
  cases s.policy with
  | firstFit =>
      cases candidates with
      | nil => rfl
      | cons first _ => exact congrArg (fun id => Except.ok (some id)) first.1
  | mostOccupied => simp only [fullest_renamed candidates]

def Told {α : Type} (ρ : Entity → Entity) (shift : UInt64) (registry : Registry) (x y : α × Store) : Prop :=
  y.1 = x.1 ∧ Renamed ρ shift registry x.2 y.2

def Answered {α : Type} (ρ : Entity → Entity) (shift : UInt64) (registry : Registry) (x y : Outcome α × Store) : Prop :=
  y.1 = Outcome.renamed ρ id x.1 ∧ Renamed ρ shift registry x.2 y.2

theorem create_sized (void : ρ ⟨0, 0⟩ = ⟨0, 0⟩) {layout : Layout} {size : Nat} {b : Block}
    (behind : ∀ c ∈ layout.columns, Entity.width * layout.capacity ≤ c.offset)
    (made : Block.create layout (.zeroed size) = .ok b) : Block.Sized ρ layout.capacity b b := by
  rw [Block.create] at made
  split at made
  · contradiction
  · obtain rfl := Except.ok.inj made
    refine ⟨⟨rfl, ⟨rfl, fun row _ => ?_, fun _ _ => rfl⟩, Nat.zero_le _, Nat.le_refl _, behind⟩, rfl⟩
    have zero : (Buffer.zeroed size).slot row = ⟨0, 0⟩ := by
      rw [Buffer.slot, Buffer.read_zeroed]
      exact Entity.ofBytes_replicate_zero
    exact zero.trans (void.symm.trans (congrArg ρ zero.symm))

theorem Renamed.build (renamed : Renamed ρ shift registry s other) (void : ρ ⟨0, 0⟩ = ⟨0, 0⟩)
    (signature : Signature) {layout : Layout}
    (made : Layout.generate signature registry s.capacity s.blockBytes = .ok (.ok layout)) :
    Both ρ (Answered ρ shift registry) (s.build signature layout) (other.build signature layout) := by
  have bump := @Renamed.bump ρ shift registry
  obtain ⟨frame, pool, slab, cache, recalls, recallsOther⟩ := renamed
  have placed := Layout.generate_behind signature registry s.capacity s.blockBytes
  rw [made] at placed
  obtain ⟨capacity, behind⟩ := placed layout rfl
  have lent := Slab.alike_allocate slab
  rw [Store.build, Store.build]
  generalize s.slab.allocate = x at lent
  generalize other.slab.allocate = y at lent
  cases lent with
  | none =>
      have numbers : other.slab.capacity = s.slab.capacity := by rw [slab.frame]
      have refused := congrArg (fun n => (.error (.outOfSlabs n) : Outcome BlockId)) numbers
      exact .ok ⟨refused, frame, pool, slab, cache, recalls, recallsOther⟩
  | @some x y lent =>
      obtain ⟨buffer, next⟩ := x
      obtain ⟨named, nextOther⟩ := y
      obtain ⟨rfl, rfl, alike⟩ := lent
      refine both_bind_same _ fun b created => ?_
      have sized := create_sized void (capacity ▸ behind) created
      rw [capacity] at sized
      refine both_bind (pool.allocate sized) fun x y allocated => ?_
      cases x with
      | error full =>
          cases y with
          | error fullOther =>
              have size : fullOther.payload.size = full.payload.size := allocated.1.payload.size
              refine both_bind (Slab.alike_release alike size) fun x y released => ?_
              refine .ok ⟨?_, by rw [frame], pool, released, cache, recalls, recallsOther⟩
              exact congrArg (fun n => (.error (.outOfBlocks n) : Outcome BlockId)) pool.capacity
          | ok _ => exact allocated.elim
      | ok taken =>
          cases y with
          | error _ => exact allocated.elim
          | ok takenOther =>
              obtain ⟨id, nextPool⟩ := taken
              obtain ⟨idOther, nextOtherPool⟩ := takenOther
              obtain ⟨rfl, pools⟩ := allocated
              have index : other.index = s.index := by rw [frame]
              refine .ok ⟨rfl, bump ⟨?_, pools, alike, cache, recalls, recallsOther⟩⟩
              rw [blocksWithSignature, blocksWithSignature, index, frame]

theorem Renamed.create_block (renamed : Renamed ρ shift registry s other) (void : ρ ⟨0, 0⟩ = ⟨0, 0⟩)
    (signature : Signature) :
    Both ρ (Answered ρ shift registry) (s.createBlock registry signature)
      (other.createBlock registry signature) := by
  have capacity : other.capacity = s.capacity := by rw [renamed.frame]
  have blockBytes : other.blockBytes = s.blockBytes := by rw [renamed.frame]
  have same : Layout.generate signature registry other.capacity other.blockBytes =
      Layout.generate signature registry s.capacity s.blockBytes := by rw [capacity, blockBytes]
  cases made : Layout.generate signature registry s.capacity s.blockBytes with
  | error fault =>
      rw [createBlock, createBlock, prepare_stops renamed.recalls (fun _ => by simp) made,
        prepare_stops renamed.recallsOther (fun _ => by simp) (same.trans made)]
      exact .error (.same fault)
  | ok outcome =>
      cases outcome with
      | error error =>
          have nameless := Layout.generate_renamed ρ signature registry s.capacity s.blockBytes
          rw [made] at nameless
          rw [createBlock, createBlock, prepare_stops renamed.recalls (fun _ => by simp) made,
            prepare_stops renamed.recallsOther (fun _ => by simp) (same.trans made)]
          exact .ok ⟨congrArg Except.error (Except.error.inj nameless).symm, renamed⟩
      | ok layout =>
          obtain ⟨layouts, built, recalls⟩ := create_block_built renamed.recalls made
          obtain ⟨others, builtOther, recallsOther⟩ := create_block_built renamed.recallsOther (same.trans made)
          have learned : Renamed ρ shift registry { s with layouts } { other with layouts := others } :=
            ⟨by rw [renamed.frame], renamed.pool, renamed.slab, renamed.cache, recalls, recallsOther⟩
          rw [built, builtOther]
          exact learned.build void signature made

theorem Renamed.acquire (renamed : Renamed ρ shift registry s other) (void : ρ ⟨0, 0⟩ = ⟨0, 0⟩) (signature : Signature) :
    Both ρ (Answered ρ shift registry) (s.acquire registry signature)
      (other.acquire registry signature) := by
  rw [Store.acquire, Store.acquire, renamed.with_space]
  refine both_bind_same _ fun chosen _ => ?_
  cases chosen with
  | some id => exact .ok ⟨rfl, renamed⟩
  | none => exact renamed.create_block void signature

theorem Renamed.insert (renamed : Renamed ρ shift registry s other) (void : ρ ⟨0, 0⟩ = ⟨0, 0⟩) (signature : Signature)
    (e : Entity) : Both ρ (Answered ρ shift registry) (s.insert registry signature e)
      (other.insert registry signature (ρ e)) := by
  refine both_bind (renamed.acquire void signature) fun x y acquired => ?_
  obtain ⟨outcome, next⟩ := x
  obtain ⟨_, nextOther⟩ := y
  obtain ⟨rfl, stores⟩ := acquired
  cases outcome with
  | error error => exact .ok ⟨rfl, stores⟩
  | ok id =>
      have stores : Renamed ρ shift registry next nextOther := stores
      rw [Outcome.renamed_ok, id_eq]
      have full : (.error (.outOfBlocks nextOther.pool.capacity) : Outcome (BlockId × Nat)) =
          .error (.outOfBlocks next.pool.capacity) :=
        congrArg (fun n => (.error (.outOfBlocks n) : Outcome (BlockId × Nat))) stores.pool.capacity
      have blocks := stores.block id
      simp only
      generalize next.block? id = x at blocks
      generalize nextOther.block? id = y at blocks
      cases blocks with
      | none => exact .ok ⟨full, stores⟩
      | @some b named sized =>
          refine both_bind (sized.1.push e) fun x y pushed => ?_
          cases pushed with
          | none => exact .ok ⟨full, stores⟩
          | @some x y pushed =>
              obtain ⟨row, b⟩ := x
              obtain ⟨rowOther, named⟩ := y
              obtain ⟨rfl, again⟩ := pushed
              rw [sized.2] at again
              exact .ok ⟨rfl, (stores.put id again).bump⟩

theorem Renamed.destroy_block (renamed : Renamed ρ shift registry s other) (id : BlockId) :
    Both ρ (Renamed ρ shift registry) (s.destroyBlock id) (other.destroyBlock id) := by
  have bump := @Renamed.bump ρ shift registry
  have whole := renamed
  obtain ⟨frame, pool, slab, cache, recalls, recallsOther⟩ := renamed
  refine both_bind (pool.release id) fun x y released => ?_
  cases released with
  | none => exact .ok whole
  | @some x y released =>
      obtain ⟨b, next⟩ := x
      obtain ⟨named, nextOther⟩ := y
      obtain ⟨sized, pools⟩ := released
      have sized : Block.Sized ρ s.capacity b named := sized
      have signature : named.signature = b.signature := by rw [sized.1.frame]
      have index : other.index = s.index := by rw [frame]
      simp only [signature, index]
      refine both_bind (Slab.alike_release slab sized.1.payload.size) fun x y slabs => .ok ?_
      refine bump ⟨?_, pools, slabs, cache, recalls, recallsOther⟩
      rw [frame]

theorem Renamed.release_if_empty (renamed : Renamed ρ shift registry s other) (id : BlockId) :
    Both ρ (Told ρ shift registry) (s.releaseIfEmpty id) (other.releaseIfEmpty id) := by
  have blocks := renamed.block id
  rw [releaseIfEmpty, releaseIfEmpty]
  generalize s.block? id = x at blocks
  generalize other.block? id = y at blocks
  cases blocks with
  | none => exact .ok ⟨rfl, renamed⟩
  | @some b named sized =>
      have empty : named.readEmpty = b.readEmpty := by rw [sized.1.frame]; rfl
      simp only [empty]
      refine both_bind_same _ fun vacant _ => ?_
      cases vacant with
      | true => exact both_bind (renamed.destroy_block id) fun x y destroyed => .ok ⟨rfl, destroyed⟩
      | false => exact .ok ⟨rfl, renamed⟩

theorem Renamed.scan (renamed : Renamed ρ shift registry s other) (query : Signature) :
    other.scan query = s.scan query := by
  refine scan_unique s query _ (scan_ascends other query) fun id => ?_
  have blocks := renamed.block id
  rw [mem_scan]
  generalize s.block? id = x at blocks
  generalize other.block? id = y at blocks
  cases blocks with
  | none => simp
  | @some b named sized =>
      have same : Matches query named ↔ Matches query b := by rw [sized.1.frame]; rfl
      simp [same]

theorem Renamed.matching_blocks (renamed : Renamed ρ shift registry s other) (query : Signature) :
    Told ρ shift registry (s.matchingBlocks query) (other.matchingBlocks query) := by
  have scan := renamed.scan query
  have kept := renamed.cache query
  have generation : other.generation = s.generation + shift := by rw [renamed.frame]
  have caching : other.cacheQueries = s.cacheQueries := by rw [renamed.frame]
  rw [matchingBlocks, matchingBlocks, scan]
  by_cases caches : s.cacheQueries = true
  · rw [if_pos caches, if_pos (caching.trans caches)]
    have current : (other.cache.find? query).filter (fun kept => kept.generation = other.generation) =
        ((s.cache.find? query).filter fun kept => kept.generation = s.generation).map fun kept =>
          { kept with generation := kept.generation + shift } := by
      rw [kept, generation, Option.filter_map]
      refine congrArg _ (congrArg (Option.filter · _) (funext fun kept => ?_))
      simp
    rw [current]
    cases (s.cache.find? query).filter fun kept => kept.generation = s.generation with
    | some found => exact ⟨rfl, renamed⟩
    | none =>
        have frame := congrArg (fun o : Store =>
          { o with cache := other.cache.insert query ⟨other.generation, s.scan query⟩ }) renamed.frame
        simp only [Option.map_none]
        refine ⟨rfl, frame, renamed.pool, renamed.slab, fun q => ?_, renamed.recalls, renamed.recallsOther⟩
        simp only [Table.find?_insert]
        split
        · rw [generation]
          rfl
        · exact renamed.cache q
  · rw [if_neg caches, if_neg (by rw [caching]; exact caches)]
    exact ⟨rfl, renamed⟩

end Store

end EntityStore
