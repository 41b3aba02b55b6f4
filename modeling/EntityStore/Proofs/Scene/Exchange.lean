import EntityStore.Proofs.Block.Overwrites
import EntityStore.Proofs.Document
import EntityStore.Proofs.Scene.Safety

set_option autoImplicit false

namespace EntityStore

namespace Registry

def serializes (r : Registry) (id : ComponentId) : Bool := (r.get? id).any Descriptor.serializable

def Fielded (r : Registry) : Prop := ∀ d ∈ r.descriptors, d.serializable = true → d.type.shape.distinct = true

def Named (r : Registry) : Prop := ((r.descriptors.filter Descriptor.serializable).map Descriptor.name).Nodup

instance (r : Registry) : Decidable r.Fielded :=
  inferInstanceAs (Decidable (∀ d ∈ r.descriptors, d.serializable = true → d.type.shape.distinct = true))

instance (r : Registry) : Decidable r.Named :=
  inferInstanceAs (Decidable ((r.descriptors.filter Descriptor.serializable).map Descriptor.name).Nodup)

theorem named_apart {r : Registry} (named : r.Named) {d f : Descriptor} (listed : d ∈ r.descriptors)
    (listedToo : f ∈ r.descriptors) (serializable : d.serializable = true)
    (serializableToo : f.serializable = true) (same : d.name = f.name) : d = f :=
  List.inj_on_of_nodup_map named (List.mem_filter.mpr ⟨listed, serializable⟩)
    (List.mem_filter.mpr ⟨listedToo, serializableToo⟩) same

end Registry

namespace Block

variable {registry : Registry} {b : Block} {row : Nat} {c : Column} {id : ComponentId}

theorem bytes_at_column (occupied : b.isOccupied row = true) (column : b.column? id = some c) :
    b.bytesAt? id row = some (b.cell c row) := by
  rw [bytesAt?, if_pos occupied, column, Option.map_some]

theorem overwrite_cell (b : Block) (c : Column) (row : Nat) :
    b.overwrite (c.span.place row) (b.cell c row) = b :=
  congrArg (fun payload => ({ b with payload } : Block)) (Buffer.write_read b.payload _ _)

def serialized (c : Column) : Bool := c.descriptor.serializable

def Documents (b : Block) (row : Nat) (c : Column) (entry : String × Document) : Prop :=
  entry.1 = c.descriptor.name ∧ c.descriptor.type.shape.encode (b.cell c row) = some entry.2

theorem inspect_columns_eq (genuine : registry.Genuine) (shaped : b.Shaped registry)
    (occupied : b.isOccupied row = true) (columns : List Column) (listed : ∀ c ∈ columns, c ∈ b.columns)
    (entries : Table String Document)
    (fresh : (entries.keys ++ (columns.filter serialized).map fun c => c.descriptor.name).Nodup)
    (encoded : ∀ c ∈ columns, c.descriptor.serializable = true →
      ∃ document, c.descriptor.type.shape.encode (b.cell c row) = some document) :
    ∃ added, Scene.inspectColumns b row entries columns = .ok (.ok ⟨entries.entries ++ added⟩) ∧
      List.Forall₂ (Documents b row) (columns.filter serialized) added := by
  have laid := shaped.laid
  induction columns generalizing entries with
  | nil => exact ⟨[], by rw [List.append_nil]; rfl, .nil⟩
  | cons c rest ih =>
      obtain ⟨here, others⟩ := List.forall_mem_cons.mp listed
      obtain ⟨first, later⟩ := List.forall_mem_cons.mp encoded
      rw [Scene.inspectColumns]
      by_cases serializable : c.descriptor.serializable = true
      · obtain ⟨document, encoding⟩ := first serializable
        have read := bytes_at_column occupied (column_of_member laid c here)
        have length := length_cell genuine laid c here row
        rw [List.filter_cons_of_pos (p := serialized) serializable, List.map_cons] at fresh
        have absent : c.descriptor.name ∉ entries.keys := fun present =>
          (List.nodup_append'.mp fresh).2.2 present List.mem_cons_self
        have keys : (entries.insert c.descriptor.name document).keys = entries.keys ++ [c.descriptor.name] := by
          rw [Table.insert_fresh _ _ _ absent, Table.keys, List.map_append]
          rfl
        obtain ⟨added, done, documents⟩ := ih others (entries.insert c.descriptor.name document)
          (by rw [keys, List.append_assoc]; exact fresh) later
        refine ⟨(c.descriptor.name, document) :: added, ?_, ?_⟩
        · simp only [if_pos serializable, shaped.read_bytes, read, Descriptor.serialize, if_pos length, encoding,
            Checked.ok_bind, done]
          rw [Table.insert_fresh _ _ _ absent, List.append_assoc]
          rfl
        · rw [List.filter_cons_of_pos (p := serialized) serializable]
          exact .cons ⟨rfl, encoding⟩ documents
      · rw [List.filter_cons_of_neg (p := serialized) serializable] at fresh ⊢
        rw [if_neg serializable]
        exact ih others entries fresh later

end Block

namespace Scene

open Checked

variable {s : Scene} {e f : Entity} {id : ComponentId} {l : Location} {b : Block} {t : Tenant}
  {content : Content} {bytes : List UInt8} {c : Column} {d : Descriptor}

theorem occupied_home (home : Home s e l b t) : b.isOccupied l.row = true := by
  rw [Block.occupied_iff, home.side]
  rfl

structure Carries (s : Scene) (e : Entity) (id : ComponentId) (content : Content) (l : Location) (b : Block)
    (t : Tenant) (c : Column) : Prop where
  home : Home s e l b t
  same : t.content = content
  column : b.column? id = some c
  member : c ∈ b.columns
  own : c.descriptor.id = id
  registered : s.registry.get? id = some c.descriptor
  bytes : content.components id = some (b.cell c l.row)

theorem carries_column (home : Home s e l b t) (member : c ∈ b.columns) :
    Carries s e c.descriptor.id t.content l b t c := by
  have laid := home.keeps.sound.laid
  have column := Block.column_of_member laid c member
  refine ⟨home, rfl, column, member, rfl, laid.known c member, ?_⟩
  exact (congrFun home.components _).trans (by rw [Block.componentsAt, column, Option.map_some])

theorem carries_of_world (sound : s.Sound) (held : s.world e = some content)
    (present : content.components id ≠ none) : ∃ l b t c, Carries s e id content l b t c := by
  obtain ⟨l, b, t, home, rfl⟩ := home_of_world sound held
  obtain ⟨bytes, found⟩ := Option.ne_none_iff_exists'.mp present
  have cells : b.componentsAt l.row id = some bytes := home.components ▸ found
  obtain ⟨c, column, _⟩ := Option.map_eq_some_iff.mp cells
  obtain ⟨member, rfl⟩ := Block.column_member id c column
  exact ⟨l, b, t, c, carries_column home member⟩

namespace Carries

variable (carries : Carries s e id content l b t c) (sound : s.Sound)

include carries sound

theorem length : (b.cell c l.row).length = c.descriptor.type.size :=
  Block.length_cell sound.store.genuine carries.home.keeps.sound.laid c carries.member l.row

theorem serialize_eq (serializable : c.descriptor.serializable = true) :
    s.serializeComponent e id = .ok (match c.descriptor.type.shape.encode (b.cell c l.row) with
      | some document => .ok document
      | none => .error .serialization) := by
  have known : s.registry.find id = .ok c.descriptor := (Registry.find_ok _ _ _).mpr carries.registered
  have read := Block.bytes_at_column (occupied_home carries.home) carries.column
  simp only [serializeComponent, known, carries.home.block_of,
    carries.home.keeps.sound.shaped.read_bytes, read, ok_bind, Descriptor.serialize, if_pos serializable,
    if_pos (carries.length sound)]
  cases c.descriptor.type.shape.encode (b.cell c l.row) <;> rfl

theorem deserialize_eq (serializable : c.descriptor.serializable = true) {document : Document}
    (decoded : c.descriptor.type.shape.decode document = some bytes) : s.deserializeComponent e id document =
      .ok (.ok (), { s with store := s.store.put l.block (b.overwrite (c.span.place l.row) bytes) }) := by
  have known : s.registry.find id = .ok c.descriptor := (Registry.find_ok _ _ _).mpr carries.registered
  have read := Block.bytes_at_column (occupied_home carries.home) carries.column
  have entry := Registry.genuine_get s.registry sound.store.genuine id _ carries.registered
  have length : bytes.length = c.descriptor.size :=
    (Shape.length_decode _ _ _ decoded).trans (Registry.entry_size entry).symm
  have inRange := Block.side_in_range carries.home.keeps.sound l.row l.enabled carries.home.side
  have wrote := Block.write_cell_ok carries.home.keeps.sound.laid c carries.member l.row inRange bytes length
  simp only [deserializeComponent, known, locate_some carries.home.found, carries.home.block,
    carries.home.keeps.sound.shaped.read_bytes, read, Descriptor.deserialize, if_pos serializable, decoded, Registry.fit_ok bytes length, ok_map, ok_bind,
    Block.setBytes, if_pos (occupied_home carries.home), carries.column, wrote]
  rfl

end Carries

structure Copied (s next : Scene) (e : Entity) (id : ComponentId) (bytes : List UInt8) : Prop where
  world : next.world = s.world.write e id bytes
  stats : next.stats = s.stats
  place : ∃ l b c, s.locate e = .ok l ∧ s.store.block? l.block = some b ∧ b.column? id = some c ∧
    c.descriptor.size = bytes.length ∧
    next = { s with store := s.store.put l.block (b.overwrite (c.span.place l.row) bytes) }

theorem copied_of_carries (sound : s.Sound) (held : s.world e = some content)
    (carries : Carries s e id content l b t c) (size : bytes.length = c.descriptor.size) :
    Copied s { s with store := s.store.put l.block (b.overwrite (c.span.place l.row) bytes) } e id bytes := by
  obtain ⟨_, change⟩ := Block.overwrite_ok carries.home.keeps.sound l.row t carries.home.tenant c carries.member
    bytes size
  have written := (rewrite_ok sound carries.home change).world
  refine ⟨?_, ?_, l, b, c, locate_some carries.home.found, carries.home.block, carries.column, size.symm, rfl⟩
  · rw [written, World.write_present held (carries.bytes ▸ Option.some_ne_none _), ← carries.same, carries.own]
    rfl
  · have allocated : (s.store.pool.set l.block (b.overwrite (c.span.place l.row) bytes)).allocated =
        s.store.pool.allocated := (Pool.set_frame _ _ _).2.1
    simp only [stats, Store.blockCount, Store.put, allocated]
    rfl

structure Exchanges (s : Scene) (e : Entity) (id : ComponentId) (bytes : List UInt8) (document : Document) :
    Prop where
  serialized : s.serializeComponent e id = .ok (.ok document)
  copied : ∀ f other, s.world f = some other → other.components id ≠ none →
    ∃ next, s.deserializeComponent f id document = .ok (.ok (), next) ∧ Copied s next f id bytes
  returned : s.deserializeComponent e id document = .ok (.ok (), s)

theorem serialized_of_range (sound : s.Sound) (held : s.world e = some content)
    (present : content.components id = some bytes) (registered : s.registry.get? id = some d)
    (serializable : d.serializable = true) (range : d.type.shape.inRange bytes = true) :
    ∃ document, s.serializeComponent e id = .ok (.ok document) ∧ d.type.shape.encode bytes = some document := by
  obtain ⟨l, b, t, c, carries⟩ := carries_of_world sound held (present ▸ Option.some_ne_none _)
  obtain rfl := Option.some.inj (carries.registered.symm.trans registered)
  obtain rfl : b.cell c l.row = bytes := Option.some.inj (carries.bytes.symm.trans present)
  obtain ⟨document, encoded⟩ := Shape.encode_ok _ _ range
  exact ⟨document, by rw [carries.serialize_eq sound serializable, encoded], encoded⟩

theorem exchanges (sound : s.Sound) (fielded : s.registry.Fielded) (held : s.world e = some content)
    (present : content.components id = some bytes) (registered : s.registry.get? id = some d)
    (serializable : d.serializable = true) (range : d.type.shape.inRange bytes = true)
    (numeric : d.type.shape.numeric bytes = true) : ∃ document, Exchanges s e id bytes document := by
  obtain ⟨document, serialized, encoded⟩ :=
    serialized_of_range sound held present registered serializable range
  obtain ⟨l, b, t, c, carries⟩ := carries_of_world sound held (present ▸ Option.some_ne_none _)
  obtain rfl := Option.some.inj (carries.registered.symm.trans registered)
  obtain rfl : b.cell c l.row = bytes := Option.some.inj (carries.bytes.symm.trans present)
  have entry := Registry.genuine_get s.registry sound.store.genuine id _ registered
  have size := carries.length sound
  have decoded := Shape.decode_encode _ _ _ (fielded _ (List.mem_of_getElem? registered) serializable) size
    numeric encoded
  refine ⟨document, serialized, fun f other lives holds => ?_, ?_⟩
  · obtain ⟨m, b', t', c', target⟩ := carries_of_world sound lives holds
    have same : c'.descriptor = c.descriptor := Option.some.inj (target.registered.symm.trans registered)
    refine ⟨_, target.deserialize_eq sound (same ▸ serializable) (same ▸ decoded), ?_⟩
    exact copied_of_carries sound lives target (same ▸ size.trans (Registry.entry_size entry).symm)
  · rw [carries.deserialize_eq sound serializable decoded, Block.overwrite_cell, Store.put_same carries.home.block]

structure Inspected (s : Scene) (e : Entity) (signature : Signature) (table : Table String Document) : Prop where
  keys : table.keys.Nodup
  entries : List.Forall₂ (fun id entry => (s.registry.get? id).map Descriptor.name = some entry.1 ∧
    s.serializeComponent e id = .ok (.ok entry.2)) (signature.ids.filter s.registry.serializes) table.entries

theorem inspected (sound : s.Sound) (named : s.registry.Named) (held : s.world e = some content)
    (ranges : ∀ id bytes d, content.components id = some bytes → s.registry.get? id = some d →
      d.serializable = true → d.type.shape.inRange bytes = true) :
    ∃ signature table, s.signatureOf e = .ok signature ∧ s.inspectEntity e = .ok (.ok table) ∧
      Inspected s e signature table := by
  obtain ⟨l, b, t, home, rfl⟩ := home_of_world sound held
  have laid := home.keeps.sound.laid
  have known (c : Column) (member : c ∈ b.columns) := List.mem_of_getElem? (laid.known c member)
  -- Columns with the same name are of the same type, and there is one column for a type only.
  have distinct : (b.columns.map fun c => c.descriptor.id).Nodup := laid.listed ▸ Signature.nodup_ids b.signature
  have names : ((b.columns.filter Block.serialized).map fun c => c.descriptor.name).Nodup := by
    refine List.Nodup.map_on (fun c listed d listedToo same => ?_) (distinct.of_map.filter _)
    obtain ⟨member, serializable⟩ := List.mem_filter.mp listed
    obtain ⟨memberToo, serializableToo⟩ := List.mem_filter.mp listedToo
    have equal := Registry.named_apart named (known c member) (known d memberToo) serializable serializableToo same
    exact List.inj_on_of_nodup_map distinct member memberToo (congrArg Descriptor.id equal)
  obtain ⟨added, done, documents⟩ := Block.inspect_columns_eq sound.store.genuine home.keeps.sound.shaped (occupied_home home)
    b.columns (fun _ member => member) .empty names fun c member serializable =>
      Shape.encode_ok _ _ (ranges _ _ _ (carries_column home member).bytes (laid.known c member) serializable)
  have ids : b.signature.ids.filter s.registry.serializes =
      (b.columns.filter Block.serialized).map fun c => c.descriptor.id := by
    rw [← laid.listed, List.filter_map]
    refine congrArg _ (List.filter_congr fun c member => ?_)
    show (s.registry.get? c.descriptor.id).any Descriptor.serializable = _
    rw [laid.known c member]
    rfl
  refine ⟨b.signature, ⟨added⟩, signature_of_ok home, ?_, ?_, ?_⟩
  · simp only [inspectEntity, home.block_of, done]
    rfl
  · have keys : added.map Prod.fst = (b.columns.filter Block.serialized).map fun c => c.descriptor.name :=
      List.forall₂_eq_eq_eq ▸ List.forall₂_map_left_iff.mpr (List.forall₂_map_right_iff.mpr
        (documents.flip.imp fun _ _ document => document.1))
    rw [Table.keys, keys]
    exact names
  · rw [ids]
    refine List.forall₂_map_left_iff.mpr (((List.forall₂_and_left _ _).mpr
      ⟨fun c listed => List.mem_filter.mp listed, documents⟩).imp ?_)
    rintro c ⟨name, document⟩ ⟨⟨member, serializable⟩, rfl, encoded⟩
    refine ⟨congrArg (Option.map Descriptor.name) (laid.known c member), ?_⟩
    rw [(carries_column home member).serialize_eq sound serializable, encoded]

/-- After every history of a new scene, the document of a component without a NaN, read into any entity
that carries the component, gives it the same bytes and changes nothing else, so nothing at all if it is
the same entity; and inspecting an entity gives just the documents of its serializable components, each
under its name. A long beyond the signed 64-bit range has no document. -/
theorem run_exchanges {name : String} {settings : Settings} {registry : Registry} {first : Scene}
    {commands : List Command} {outcomes : List (Outcome Reply)} (genuine : registry.Genuine)
    (fielded : registry.Fielded) (made : create name settings registry = .ok (.ok first))
    (ran : first.performAll commands = .ok (outcomes, s)) :
    (∀ e content id bytes d, s.world e = some content → content.components id = some bytes →
      registry.get? id = some d → d.serializable = true → d.type.shape.inRange bytes = true →
      d.type.shape.numeric bytes = true → ∃ document, Exchanges s e id bytes document) ∧
    (registry.Named → ∀ e content, s.world e = some content →
      (∀ id bytes d, content.components id = some bytes → registry.get? id = some d →
        d.serializable = true → d.type.shape.inRange bytes = true) →
      ∃ signature table, s.signatureOf e = .ok signature ∧ s.inspectEntity e = .ok (.ok table) ∧
        Inspected s e signature table) := by
  have blank := blank_of_created genuine made
  obtain ⟨sound, alike⟩ := run_sound blank.sound ran
  obtain rfl : s.registry = registry := (alike.registry : s.registry = first.registry).trans blank.registry
  exact ⟨fun e content id bytes d held present registered serializable range numeric =>
      exchanges sound fielded held present registered serializable range numeric,
    fun named e content held ranges => inspected sound named held ranges⟩

def strangeLight : Component :=
  ⟨.light, [0x80000000, 0x7f800000, 0x00000001, 0xff800000, 0x807fffff].flatMap (Bytes.ofNat 4), rfl⟩

set_option maxRecDepth 2048 in
theorem run_exchanges_lights : ∃ first outcomes s document,
    create "world" { blockCapacity := 2, blockBytes := 64, maxBlocks := 1 } .builtins = .ok (.ok first) ∧
      first.performAll [.spawn (.one strangeLight), .spawn (.one (.initial .light))] = .ok (outcomes, s) ∧
      Exchanges s ⟨0, 1⟩ ComponentType.light.id strangeLight.bytes document ∧
      (∃ next, s.deserializeComponent ⟨1, 1⟩ ComponentType.light.id document = .ok (.ok (), next) ∧
        Copied s next ⟨1, 1⟩ ComponentType.light.id strangeLight.bytes) ∧
      ∃ signature table, s.inspectEntity ⟨0, 1⟩ = .ok (.ok table) ∧ Inspected s ⟨0, 1⟩ signature table := by
  obtain ⟨first, outcomes, s, content, other, made, ran, held, present, lives, carries⟩ :
      ∃ first outcomes s content other,
        create "world" { blockCapacity := 2, blockBytes := 64, maxBlocks := 1 } .builtins = .ok (.ok first) ∧
          first.performAll [.spawn (.one strangeLight), .spawn (.one (.initial .light))] = .ok (outcomes, s) ∧
          s.world ⟨0, 1⟩ = some content ∧ content.components ComponentType.light.id = some strangeLight.bytes ∧
          s.world ⟨1, 1⟩ = some other ∧ other.components ComponentType.light.id =
            some ComponentType.light.initial :=
    ⟨_, _, _, _, _, rfl, rfl, rfl, rfl, rfl, rfl⟩
  obtain ⟨exchanged, shown⟩ := run_exchanges Registry.builtins_genuine (by decide) made ran
  obtain ⟨document, exchanges⟩ := exchanged _ _ _ _ _ held present rfl rfl (by decide) (by decide)
  have short : ∀ d ∈ Registry.builtins.descriptors, d.type.shape.short = true := by decide
  obtain ⟨signature, table, _, inspected⟩ := shown (by decide) _ _ held fun _ _ d _ registered _ =>
    Shape.in_range_of_short _ (short d (List.mem_of_getElem? registered)) _
  exact ⟨first, outcomes, s, document, made, ran, exchanges,
    exchanges.copied _ _ lives (carries ▸ Option.some_ne_none _), signature, table, inspected⟩

end Scene

end EntityStore
