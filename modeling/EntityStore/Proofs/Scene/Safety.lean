import EntityStore.Proofs.Layout.Sizes
import EntityStore.Proofs.Scene.Capacity
import EntityStore.Proofs.Scene.Refusals

set_option autoImplicit false

namespace EntityStore

open Checked

theorem Descriptor.serialize_ok (d : Descriptor) (bytes : List UInt8)
    (length : bytes.length = d.type.size) : ∃ outcome, d.serialize bytes = .ok outcome := by
  unfold serialize
  by_cases serializable : d.serializable = true
  · rw [if_pos serializable, if_pos length]
    cases d.type.shape.encode bytes with
    | none => exact ⟨_, rfl⟩
    | some document => exact ⟨_, rfl⟩
  · rw [if_neg serializable]
    exact ⟨_, rfl⟩

namespace Block

structure Answers (b : Block) : Prop where
  occupied : ∃ count, b.readOccupied = .ok count
  entities : ∃ entities, b.readEntities = .ok entities
  disabled : ∃ entities, b.readDisabled = .ok entities
  entityAt : ∀ row, ∃ e, b.readEntityAt row = .ok e
  bytes : ∀ id row, ∃ bytes, b.readBytes id row = .ok bytes
  component : ∀ access type row, ∃ value, b.readComponent access type row = .ok value
  components : ∀ type, ∃ values, b.readComponents type = .ok values

variable {registry : Registry} {b : Block}

theorem answers_of_shaped (genuine : registry.Genuine) (shaped : b.Shaped registry) : b.Answers where
  occupied := ⟨_, shaped.read_occupied⟩
  entities := ⟨_, shaped.read_entities⟩
  disabled := ⟨_, read_disabled_ok (slots_fit shaped.laid) shaped.disabled_le⟩
  entityAt _ := ⟨_, shaped.read_entity_at⟩
  bytes id row := ⟨_, shaped.read_bytes id row⟩
  component access type row := ⟨_, read_component_ok genuine shaped type access row⟩
  components type := ⟨_, read_components_ok genuine shaped type⟩

theorem length_cell (genuine : registry.Genuine) (laid : b.Laid registry) (c : Column)
    (member : c ∈ b.columns) (row : Nat) : (b.cell c row).length = c.descriptor.type.size := by
  rw [cell, Buffer.length_read, Column.span, Registry.entry_size (entry_of_column genuine laid c member)]

theorem bytes_column {id : ComponentId} {row : Nat} {bytes : List UInt8}
    (held : b.bytesAt? id row = some bytes) :
    ∃ c ∈ b.columns, c.descriptor.id = id ∧ bytes = b.cell c row := by
  unfold bytesAt? at held
  by_cases occupied : b.isOccupied row = true
  · rw [if_pos occupied] at held
    obtain ⟨c, found, rfl⟩ := Option.map_eq_some_iff.mp held
    obtain ⟨member, same⟩ := column_member id c found
    exact ⟨c, member, same, rfl⟩
  · rw [if_neg occupied] at held
    contradiction

end Block

namespace Scene

variable {s next : Scene}

section Answers

theorem get_total (sound : s.Sound) (e : Entity) (type : ComponentType) :
    ∃ outcome, s.get e type = .ok outcome := ⟨_, get_of_world sound e type⟩

theorem serialize_component_total (sound : s.Sound) (e : Entity) (id : ComponentId) :
    ∃ outcome, s.serializeComponent e id = .ok outcome := by
  unfold serializeComponent
  cases search : s.registry.find id with
  | error error => exact ⟨_, rfl⟩
  | ok d =>
      have registered := (Registry.find_ok s.registry id d).mp search
      cases located : s.directory.location? e with
      | none =>
          simp only [block_of_none located]
          exact ⟨_, rfl⟩
      | some l =>
          obtain ⟨b, t, home⟩ := home_of sound located
          simp only [home.block_of, home.keeps.sound.shaped.read_bytes]
          cases held : b.bytesAt? id l.row with
          | none => exact ⟨_, rfl⟩
          | some bytes =>
              obtain ⟨c, member, rfl, rfl⟩ := Block.bytes_column held
              have laid := home.keeps.sound.laid
              have same : c.descriptor = d := Option.some.inj ((laid.known c member).symm.trans registered)
              exact same ▸ c.descriptor.serialize_ok _
                (Block.length_cell sound.store.genuine laid c member l.row)

theorem inspect_columns_total {registry : Registry} {b : Block} (genuine : registry.Genuine)
    (shaped : b.Shaped registry) (row : Nat) (columns : List Column) (listed : ∀ c ∈ columns, c ∈ b.columns)
    (entries : Table String Document) :
    ∃ outcome, inspectColumns b row entries columns = .ok outcome := by
  have laid := shaped.laid
  induction columns generalizing entries with
  | nil => exact ⟨_, rfl⟩
  | cons c rest ih =>
      obtain ⟨here, others⟩ := List.forall_mem_cons.mp listed
      unfold inspectColumns
      by_cases serializable : c.descriptor.serializable = true
      · simp only [if_pos serializable, shaped.read_bytes, ok_bind]
        cases held : b.bytesAt? c.descriptor.id row with
        | none => exact ih others entries
        | some bytes =>
            obtain ⟨d, member, same, rfl⟩ := Block.bytes_column held
            have found := Block.column_of_member laid d member
            rw [same, Block.column_of_member laid c here] at found
            obtain rfl := Option.some.inj found
            obtain ⟨outcome, read⟩ := c.descriptor.serialize_ok _ (Block.length_cell genuine laid c here row)
            simp only [read, ok_bind]
            cases outcome with
            | error error => exact ⟨_, rfl⟩
            | ok document => exact ih others _
      · rw [if_neg serializable]
        exact ih others entries

theorem inspect_entity_total (sound : s.Sound) (e : Entity) :
    ∃ outcome, s.inspectEntity e = .ok outcome := by
  unfold inspectEntity
  cases located : s.directory.location? e with
  | none =>
      rw [block_of_none located]
      exact ⟨_, rfl⟩
  | some l =>
      obtain ⟨b, t, home⟩ := home_of sound located
      rw [home.block_of]
      exact inspect_columns_total sound.store.genuine home.keeps.sound.shaped l.row b.columns
        (fun _ member => member) .empty

structure Answers (s : Scene) : Prop where
  get : ∀ e type, ∃ outcome, s.get e type = .ok outcome
  serialize : ∀ e id, ∃ outcome, s.serializeComponent e id = .ok outcome
  inspect : ∀ e, ∃ outcome, s.inspectEntity e = .ok outcome
  rows : ∀ view, ∃ rows, s.readRows view = .ok rows
  singleton : ∀ id, ∃ result, s.singletonEntity id = .ok result
  blocks : ∀ id b, s.store.block? id = some b → b.Answers

theorem answers_of_sound (sound : s.Sound) : s.Answers where
  get := get_total sound
  serialize := serialize_component_total sound
  inspect := inspect_entity_total sound
  rows view := ⟨_, Store.read_rows_ok sound.store view⟩
  singleton id := ⟨_, singleton_entity_ok sound id⟩
  blocks id _ found := Block.answers_of_shaped sound.store.genuine (sound.store.keeps id _ found).sound.shaped

end Answers

-- What is read without a check lies where it is looked for.
structure Bounded (s : Scene) : Prop where
  rows : ∀ id b, s.store.block? id = some b → b.entityCount ≤ b.disabledStart ∧ b.disabledStart ≤ b.capacity
  spans : ∀ id b, s.store.block? id = some b → ∀ span ∈ b.spans,
    span.offset + b.capacity * span.size ≤ b.payload.size
  payloads : ∀ id b, s.store.block? id = some b → b.payload.size = s.store.slab.bufferBytes
  lent : s.store.buffersInUse = s.store.blockCount
  located : ∀ e l, s.locate e = .ok l → ∃ b, s.store.block? l.block = some b ∧
    b.entityAt? l.row = some e ∧ b.isEnabledRow l.row = l.enabled
  members : ∀ e depth position, s.hierarchy.slots.find? e = some (depth, position) →
    ((s.hierarchy.level depth)[position]?).map Entry.entity = some e
  parents : ∀ (depth position : Nat) (entry : Entry), (s.hierarchy.level (depth + 1))[position]? = some entry →
    entry.parentIdx.toNat < (s.hierarchy.level depth).length
  worlds : ∀ level ∈ s.hierarchy.levels, level.worlds.length = level.entries.length

theorem located_bounded (sound : s.Sound) {e : Entity} {l : Location} (located : s.locate e = .ok l) :
    ∃ b, s.store.block? l.block = some b ∧ b.entityAt? l.row = some e ∧
      b.isEnabledRow l.row = l.enabled := by
  cases found : s.directory.location? e with
  | none =>
      rw [locate_none found] at located
      contradiction
  | some other =>
      rw [locate_some found] at located
      obtain rfl := Except.ok.inj located
      obtain ⟨b, t, home⟩ := home_of sound found
      have occupied : b.isOccupied other.row = true := by
        rw [Block.occupied_iff, home.side]
        rfl
      obtain ⟨_, holder, _⟩ := Block.tenant_side _ _ home.tenant
      refine ⟨b, home.block, ?_, ?_⟩
      · rw [Block.entityAt?, if_pos occupied, ← holder, home.entity]
      · have side := home.side
        cases enabled : other.enabled with
        | true =>
            rw [enabled] at side
            exact decide_eq_true ((Block.side_enabled _).mp side)
        | false =>
            rw [enabled] at side
            have disabled := (Block.side_disabled home.keeps.sound.enabled_le _).mp side
            have ordered := home.keeps.sound.enabled_le
            exact decide_eq_false (by omega)

theorem bounded_of_sound (sound : s.Sound) : s.Bounded := by
  obtain ⟨log, records⟩ := sound.hierarchy
  have forest := records.forest
  refine ⟨fun id b found => ?_, fun id b found span member => ?_, fun id b found => ?_, sound.store.lent,
    fun _ _ => located_bounded sound, fun e depth position => (forest.placed e depth position).mp,
    fun depth position entry found => ?_, forest.worlds⟩
  · have kept := (sound.store.keeps id b found).sound
    exact ⟨kept.enabled_le, kept.disabled_le⟩
  · exact (sound.store.keeps id b found).sound.laid.inside span member
  · exact (sound.store.keeps id b found).size.trans sound.store.buffers.symm
  · obtain ⟨above, there, _⟩ := forest.hangs depth position entry found
    exact (List.getElem?_eq_some_iff.mp there).1

def Roomy (s : Scene) (commands : List Command) : Prop :=
  ∀ earlier replies middle, earlier <+: commands → s.performAll earlier = .ok (replies, middle) →
    middle.directory.size < 0xffffffff

theorem Roomy.tail {command : Command} {rest : List Command} {outcome : Outcome Reply}
    (roomy : s.Roomy (command :: rest)) (performed : s.perform command = .ok (outcome, next)) :
    next.Roomy rest := fun earlier replies middle early went =>
  roomy (command :: earlier) (outcome :: replies) middle (List.cons_prefix_cons.mpr ⟨rfl, early⟩)
    ((perform_all_cons_iff command earlier).mpr ⟨outcome, next, replies, performed, went, rfl⟩)

-- Whether there are so many commands that a position or a number of frames can come to its end.
def Crowds (s : Scene) (commands : List Command) : Prop :=
  ∃ middle, s.Reaches commands middle ∧ ¬ middle.Sparse

theorem perform_all_safe (sound : s.Sound) (commands : List Command) (roomy : s.Roomy commands)
    (sizes : ∀ signature fault, ¬ s.store.Overflows s.registry signature fault) :
    Ensures (fun fault => fault = .sumOverflow ∧ s.Crowds commands) (s.performAll commands)
      fun (replies, last) => last.Sound ∧ ∀ error, .error error ∈ replies → error.Expected := by
  induction commands generalizing s with
  | nil => exact ⟨sound, fun _ member => absurd member List.not_mem_nil⟩
  | cons command rest ih =>
      have room := roomy [] [] s List.nil_prefix rfl
      have first := perform_ok sound command
      have refuses := perform_refuses sound command
      rw [performAll]
      cases performed : s.perform command with
      | error fault =>
          rw [performed] at first
          obtain ⟨_, full⟩ | ⟨stopped, crowded⟩ | ⟨signature, overflow⟩ := first
          · omega
          · exact ⟨stopped, s, reaches_start s _, crowded⟩
          · exact absurd overflow (sizes signature fault)
      | ok result =>
          obtain ⟨outcome, middle⟩ := result
          rw [performed] at first refuses
          have step : Stepped s command outcome middle := first
          have later := ih step.sound (roomy.tail performed) fun signature fault overflow => by
            rw [step.alike.registry] at overflow
            exact sizes signature fault ((step.alike.overflows signature fault).mp overflow)
          rw [ok_bind]
          refine ensures_bind _ (ensures_mono later ?_ fun _ final => final) ?_
          · rintro fault ⟨stopped, last, reaches, crowded⟩
            exact ⟨stopped, last, reaches_later performed reaches, crowded⟩
          · rintro ⟨replies, last⟩ ⟨final, others⟩
            refine ⟨final, fun error member => ?_⟩
            rcases List.mem_cons.mp member with here | there
            · exact (refuses error here.symm).1
            · exact others error there

def Runs (s : Scene) (commands : List Command) : Prop :=
  ∃ replies last, s.performAll commands = .ok (replies, last) ∧
    (∀ capacity, .error (.outOfBlocks capacity) ∉ replies) ∧ last.Answers ∧ last.Bounded

/-- With valid settings a scene is made, and no assertion, index, split, copy or difference fails in any
history of commands, whatever handles they name. Only a count of 32 bits or more can come to its end,
which takes as many commands. -/
theorem run_safe (name : String) (settings : Settings) (registry : Registry)
    (valid : settings.validate = .ok ()) (genuine : registry.Genuine)
    (sizes : ∀ signature,
      Layout.generate signature registry settings.blockCapacity settings.blockBytes ≠ .error .sumOverflow ∧
      Layout.generate signature registry settings.blockCapacity settings.blockBytes ≠
        .error .productOverflow) :
    ∃ first, create name settings registry = .ok (.ok first) ∧ ∀ commands, first.Roomy commands →
      first.Runs commands ∨
        first.performAll commands = .error .sumOverflow ∧ first.Crowds commands ∧
          0xffffffff ≤ commands.length := by
  obtain ⟨first, made, blank⟩ := create_ok name settings registry valid genuine
  refine ⟨first, made, fun commands roomy => ?_⟩
  have computed (signature : Signature) (fault : Fault) : ¬ first.store.Overflows first.registry signature fault := by
    intro overflow
    have known : first.registry = registry := blank.registry
    have excess := Layout.generate_excess genuine signature settings.blockCapacity settings.blockBytes
    rw [Store.Overflows, blank.capacity, blank.blockBytes, known] at overflow
    rw [overflow] at excess
    rcases excess with rfl | rfl
    · exact (sizes signature).1 overflow
    · exact (sizes signature).2 overflow
  have safe := perform_all_safe blank.sound commands roomy computed
  cases ran : first.performAll commands with
  | error fault =>
      rw [ran] at safe
      obtain ⟨rfl, last, reaches, crowded⟩ := safe
      refine Or.inr ⟨rfl, ⟨last, reaches, crowded⟩, ?_⟩
      by_contra few
      exact crowded (sparse_of_few blank (by omega) reaches)
  | ok result =>
      obtain ⟨replies, last⟩ := result
      rw [ran] at safe
      obtain ⟨sound, expected⟩ := safe
      exact Or.inl ⟨replies, last, ran, fun capacity member => expected _ member capacity rfl,
        answers_of_sound sound, bounded_of_sound sound⟩

theorem run_safe_default : ∃ first, create "world" {} .builtins = .ok (.ok first) ∧
    ∀ commands, first.Roomy commands → first.Runs commands ∨
      first.performAll commands = .error .sumOverflow ∧ first.Crowds commands ∧
        0xffffffff ≤ commands.length := by
  refine run_safe "world" {} .builtins (by decide) Registry.builtins_genuine fun signature => ?_
  obtain ⟨outcome, made⟩ := Layout.generate_small Registry.builtins_genuine signature 128 32768
    (by decide +kernel)
  rw [show Layout.generate signature .builtins ({} : Settings).blockCapacity ({} : Settings).blockBytes =
    .ok outcome from made]
  exact ⟨by simp, by simp⟩

end Scene

end EntityStore
