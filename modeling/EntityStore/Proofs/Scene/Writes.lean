import EntityStore.Proofs.Scene.Migration
import EntityStore.Proofs.Shape

set_option autoImplicit false

namespace EntityStore

namespace Registry

def Knows (r : Registry) (type : ComponentType) : Prop := r.check type = .ok ()

instance (r : Registry) (type : ComponentType) : Decidable (r.Knows type) :=
  decidable_of_iff (r.check type = .ok ()) Iff.rfl

end Registry

namespace Scene

open Checked

variable {s next : Scene} {e : Entity} {l : Location} {b : Block} {t : Tenant}

section Reads

theorem block_of_none (gone : s.directory.location? e = none) :
    s.blockOf e = .error (.staleEntity e) := by
  simp only [blockOf, locate_none gone]

theorem signature_of_stale (gone : s.directory.location? e = none) :
    s.signatureOf e = .error (.staleEntity e) := by
  rw [signatureOf, block_of_none gone]
  rfl

theorem signature_of_ok (home : Home s e l b t) : s.signatureOf e = .ok b.signature := by
  rw [signatureOf, home.block_of]
  rfl

theorem signed (home : Home s e l b t) (id : ComponentId) :
    b.signature.contains id = (t.components id).isSome := by
  rw [home.components, Block.components_some_iff home.keeps.sound.laid]

theorem is_enabled_ok (home : Home s e l b t) : s.isEnabled e = .ok t.enabled := by
  rw [isEnabled, locate_some home.found, home.enabled]
  rfl

theorem get_stale (gone : s.directory.location? e = none) (type : ComponentType) :
    s.get e type = .ok (.error (.staleEntity e)) := by
  simp only [get, block_of_none gone]

theorem get_ok (sound : s.Sound) (home : Home s e l b t) (type : ComponentType) :
    (∃ value, s.get e type = .ok (.ok value) ∧ value.type = type ∧ s.registry.Knows type ∧
        t.components type.id = some value.bytes) ∨
      s.get e type = .ok (.error (.missingComponent e type.id)) ∧
        ¬ (s.registry.Knows type ∧ t.components type.id ≠ none) := by
  have iff := Block.component_some_iff sound.store.genuine home.keeps.sound.laid type l.row
  have read : s.get e type = .ok (match b.component? type l.row with
      | some value => .ok value
      | none => .error (.missingComponent e type.id)) := by
    simp only [get, home.block_of, home.read_component sound, ok_bind]
    cases b.component? type l.row <;> rfl
  rw [read]
  cases found : b.component? type l.row with
  | some value =>
      obtain ⟨same, known, t', held, bytes⟩ := (iff value).mp found
      obtain rfl := Option.some.inj (home.tenant.symm.trans held)
      exact Or.inl ⟨value, rfl, same, known, bytes⟩
  | none =>
      refine Or.inr ⟨rfl, fun ⟨known, present⟩ => ?_⟩
      obtain ⟨bytes, held⟩ := Option.ne_none_iff_exists'.mp present
      have size : bytes.length = type.size := by
        rw [home.components] at held
        obtain ⟨c, column, rfl⟩ := Option.map_eq_some_iff.mp held
        have typed := (Block.typed_column_known home.keeps.sound.laid type c).mpr ⟨column, known⟩
        have entry := Block.entry_of_column sound.store.genuine home.keeps.sound.laid c
          (Block.column_member _ c column).1
        rw [Block.cell, Buffer.length_read, Column.span, Registry.entry_size entry,
          ((Block.typed_column_iff type c).mp typed).2]
      have read := (iff ⟨type, bytes, size⟩).mpr ⟨rfl, known, t, home.tenant, held⟩
      rw [found] at read
      contradiction

theorem get_of_world (sound : s.Sound) (e : Entity) (type : ComponentType) :
    s.get e type = .ok (match s.world e with
      | none => .error (.staleEntity e)
      | some content =>
        if s.registry.Knows type then
          match (content.components type.id).bind (Component.ofBytes? type) with
          | some value => .ok value
          | none => .error (.missingComponent e type.id)
        else .error (.missingComponent e type.id)) := by
  cases found : s.directory.location? e with
  | none =>
      rw [get_stale found, dead_of_stale sound found]
  | some l =>
      obtain ⟨b, t, home⟩ := home_of sound found
      rw [home.world]
      rcases get_ok sound home type with ⟨value, got, same, known, held⟩ | ⟨missing, absent⟩
      · have whole : Component.ofBytes? type value.bytes = some value := by
          subst same
          exact dif_pos value.length_eq
        simp only [got, if_pos known, Tenant.content, held, Option.bind_some, whole]
      · rw [missing]
        by_cases known : s.registry.Knows type
        · have none : t.components type.id = none := by
            by_contra present
            exact absent ⟨known, present⟩
          simp only [if_pos known, Tenant.content, none, Option.bind_none]
        · simp only [if_neg known]

end Reads

section Replace

theorem replace_stale (gone : s.directory.location? e = none) (value : Component) :
    s.replace e value = .ok (.error (.staleEntity e), s) := by
  simp only [replace, locate_none gone]

theorem replace_ok (sound : s.Sound) (home : Home s e l b t) (value : Component) :
    (∃ old next, s.replace e value = .ok (.ok old, next) ∧ s.registry.Knows value.type ∧
        old.type = value.type ∧ t.components value.type.id = some old.bytes ∧
        Becomes s next 0 (Function.update s.world e (some ⟨t.enabled,
          Function.update t.components value.type.id (some value.bytes)⟩)) s.slots) ∨
      s.replace e value = .ok (.error (.missingComponent e value.type.id), s) ∧
        ¬ (s.registry.Knows value.type ∧ t.components value.type.id ≠ none) := by
  have iff := Block.component_some_iff sound.store.genuine home.keeps.sound.laid value.type l.row
  rcases get_ok sound home value.type with ⟨old, _, same, known, bytes⟩ | ⟨_, absent⟩
  · have found := (iff old).mpr ⟨same, known, t, home.tenant, bytes⟩
    obtain ⟨nextBlock, wrote, change⟩ := Block.set_component_ok sound.store.genuine home.keeps.sound l.row
      value t home.tenant known (by simp [bytes])
    refine Or.inl ⟨old, { s with store := s.store.put l.block nextBlock }, ?_, known, same, bytes,
      rewrite_ok sound home change⟩
    simp only [replace, locate_some home.found, home.block, home.read_component sound, found, wrote, ok_bind]
    rfl
  · refine Or.inr ⟨?_, absent⟩
    have missing : b.component? value.type l.row = none := by
      cases found : b.component? value.type l.row with
      | none => rfl
      | some old =>
          obtain ⟨_, known, t', held, bytes⟩ := (iff old).mp found
          obtain rfl := Option.some.inj (home.tenant.symm.trans held)
          exact absurd ⟨known, by simp [bytes]⟩ absent
    simp only [replace, locate_some home.found, home.block, home.read_component sound, missing, ok_bind]
    rfl

end Replace

section Inherit

theorem inherit_kept (home : Home s e l b t) (target : Signature) (id : ComponentId)
    (kept : target.contains id = true) (had : t.components id ≠ none) :
    (s.registry.defaults target).inherit t.components id = t.components id := by
  obtain ⟨bytes, held⟩ := Option.ne_none_iff_exists'.mp had
  have registered : ∃ d, s.registry.get? id = some d := by
    rw [home.components] at held
    obtain ⟨c, column, _⟩ := Option.map_eq_some_iff.mp held
    obtain ⟨member, same⟩ := Block.column_member id c column
    exact ⟨c.descriptor, same ▸ home.keeps.sound.laid.known c member⟩
  obtain ⟨d, registered⟩ := registered
  rw [Components.inherit, Registry.defaults, if_pos kept, registered, held]
  rfl

theorem inherit_dropped (r : Registry) (target : Signature) (old : Components) (id : ComponentId)
    (dropped : target.contains id = false) : (r.defaults target).inherit old id = none := by
  rw [Components.inherit, Registry.defaults, dropped]
  rfl

theorem absent_of_unsigned (home : Home s e l b t) (id : ComponentId)
    (unsigned : b.signature.contains id = false) : t.components id = none := by
  rw [signed home] at unsigned
  simpa using unsigned

theorem inherit_agreed (home : Home s e l b t) (target : Signature) (id : ComponentId)
    (agreed : target.contains id = b.signature.contains id) :
    (s.registry.defaults target).inherit t.components id = t.components id := by
  rw [signed home] at agreed
  cases had : t.components id with
  | none => exact inherit_dropped _ _ _ id (by rw [agreed, had]; rfl)
  | some bytes =>
      rw [← had]
      exact inherit_kept home _ id (by rw [agreed, had]; rfl) (by simp [had])

theorem inherit_insert (home : Home s e l b t) (id : ComponentId) (bytes : List UInt8) :
    Function.update ((s.registry.defaults (b.signature.insert id)).inherit t.components) id (some bytes) =
      Function.update t.components id (some bytes) := by
  funext other
  by_cases here : other = id
  · rw [here, Function.update_self, Function.update_self]
  · rw [Function.update_of_ne here, Function.update_of_ne here]
    refine inherit_agreed home _ other ?_
    rw [Signature.contains_insert, decide_eq_false (Ne.symm here), Bool.false_or]

theorem inherit_erase (home : Home s e l b t) (id : ComponentId) :
    (s.registry.defaults (b.signature.erase id)).inherit t.components =
      Function.update t.components id none := by
  funext other
  by_cases here : other = id
  · rw [here, Function.update_self]
    refine inherit_dropped _ _ _ _ ?_
    rw [Signature.contains_erase]
    simp
  · rw [Function.update_of_ne here]
    refine inherit_agreed home _ other ?_
    rw [Signature.contains_erase, decide_eq_false (Ne.symm here)]
    exact Bool.and_true _

end Inherit

section Add

theorem add_component_stale (gone : s.directory.location? e = none) (value : Component) :
    s.addComponent e value = .ok (.error (.staleEntity e), s) := by
  simp only [addComponent, signature_of_stale gone]

theorem add_component_ok (sound : s.Sound) (home : Home s e l b t) (value : Component) :
    Ensures s.Stops (s.addComponent e value) fun (outcome, next) =>
      match outcome with
      | .error error => Learns s next ∧ Becomes s next 0 s.world s.slots ∧ error.Expected
      | .ok () => t.components value.type.id = none ∧ s.registry.Knows value.type ∧
          Becomes s next 3 (Function.update s.world e (some ⟨t.enabled,
            Function.update t.components value.type.id (some value.bytes)⟩)) s.slots := by
  simp only [addComponent, signature_of_ok home]
  by_cases present : b.signature.contains value.type.id = true
  · rw [if_pos present]
    exact ⟨learns_refl s, becomes_refl sound, fun _ => by simp⟩
  · rw [if_neg present]
    have absent : t.components value.type.id = none :=
      absent_of_unsigned home _ (by simpa using present)
    cases check : s.registry.check value.type with
    | error error => exact ⟨learns_refl s, becomes_refl sound, Registry.check_expected check⟩
    | ok done =>
        have grows : b.signature.insert value.type.id ≠ b.signature := by
          intro same
          rw [← same, Signature.contains_insert] at present
          simp at present
        refine ensures_bind _ (migrate_ok sound home _ grows) ?_
        rintro ⟨outcome, middle⟩ result
        cases outcome with
        | error error => exact ⟨result.1, result.2.1, result.2.2.expected⟩
        | ok moved =>
            have middleSound := result.sound
            have content := congrFun result.world e
            rw [Function.update_self] at content
            obtain ⟨l', b', t', home', belongings⟩ := home_of_world middleSound content
            have enabled : t'.enabled = t.enabled := congrArg Content.enabled belongings
            have components : t'.components =
                (s.registry.defaults (b.signature.insert value.type.id)).inherit t.components :=
              congrArg Content.components belongings
            have registry : middle.registry = s.registry := result.alike.registry
            obtain ⟨d, registered, _⟩ := (Registry.check_ok s.registry value.type).mp check
            have ready : t'.components value.type.id ≠ none := by
              rw [components, Components.inherit, Registry.defaults, Signature.contains_insert]
              simp [registered]
            -- The entity has come to its new block with a default value, which is now replaced.
            rcases replace_ok middleSound home' value with ⟨old, next, replaced, _, _, _, written⟩ |
              ⟨_, refused⟩
            · simp only [replaced, ok_bind]
              have becomes := result.trans written
              rw [result.world, Function.update_idem, components, inherit_insert home, enabled,
                result.slots] at becomes
              exact ⟨absent, check, becomes⟩
            · exact absurd ⟨(registry ▸ check : middle.registry.check value.type = .ok ()), ready⟩ refused

end Add

section Remove

theorem remove_component_stale (gone : s.directory.location? e = none) (type : ComponentType) :
    s.removeComponent e type = .ok (.error (.staleEntity e), s) := by
  simp only [removeComponent, get_stale gone, ok_bind]
  rfl

theorem remove_component_ok (sound : s.Sound) (home : Home s e l b t) (type : ComponentType) :
    Ensures s.Stops (s.removeComponent e type) fun (outcome, next) =>
      match outcome with
      | .error error => Learns s next ∧ Becomes s next 0 s.world s.slots ∧ error.Expected
      | .ok value => value.type = type ∧ t.components type.id = some value.bytes ∧
          s.registry.Knows type ∧ Becomes s next 3 (Function.update s.world e
            (some ⟨t.enabled, Function.update t.components type.id none⟩)) s.slots := by
  unfold removeComponent
  rcases get_ok sound home type with ⟨value, got, same, known, bytes⟩ | ⟨missing, _⟩
  · simp only [got, ok_bind, signature_of_ok home]
    have present : b.signature.contains type.id = true := by
      rw [signed home, bytes]
      rfl
    have shrinks : b.signature.erase type.id ≠ b.signature := by
      intro same
      rw [← same, Signature.contains_erase] at present
      simp at present
    refine ensures_bind _ (migrate_ok sound home _ shrinks) ?_
    rintro ⟨outcome, next⟩ result
    cases outcome with
    | error error => exact ⟨result.1, result.2.1, result.2.2.expected⟩
    | ok moved =>
        have result : Becomes s next 3 _ _ := result
        rw [inherit_erase home] at result
        exact ⟨same, bytes, known, result⟩
  · simp only [missing, ok_bind]
    exact ⟨learns_refl s, becomes_refl sound, fun _ => by simp⟩

end Remove

section Deserialize

variable {id : ComponentId} {d : Descriptor} {document : Document}

theorem descriptor_deserialize (sound : s.Sound) (registered : s.registry.get? id = some d) (document : Document) :
    (∃ bytes, d.serializable = true ∧ d.type.shape.decode document = some bytes ∧ bytes.length = d.size ∧
        d.deserialize document = .ok (.ok bytes)) ∨
      ∃ error, error.Expected ∧ d.deserialize document = .ok (.error error) ∧
        ¬ (d.serializable = true ∧ d.type.shape.decode document ≠ none) := by
  have entry := Registry.genuine_get s.registry sound.store.genuine id d registered
  rw [Descriptor.deserialize]
  by_cases serializable : d.serializable = true
  · rw [if_pos serializable]
    cases decoded : d.type.shape.decode document with
    | none => exact Or.inr ⟨.serialization, fun _ => by simp, rfl, fun allowed => allowed.2 rfl⟩
    | some bytes =>
        have length : bytes.length = d.size :=
          (Shape.length_decode _ _ _ decoded).trans (Registry.entry_size entry).symm
        exact Or.inl ⟨bytes, serializable, rfl, length, by simp only [Registry.fit_ok bytes length, ok_map]⟩
  · rw [if_neg serializable]
    exact Or.inr ⟨.notSerializable d.id, fun _ => by simp, rfl, fun allowed => serializable allowed.1⟩

theorem deserialize_unregistered {error : StoreError} (search : s.registry.find id = .error error) :
    s.deserializeComponent e id document = .ok (.error error, s) := by
  rw [deserializeComponent, search]

theorem deserialize_stale (registered : s.registry.get? id = some d) (gone : s.directory.location? e = none) :
    s.deserializeComponent e id document = .ok (.error (.staleEntity e), s) := by
  simp only [deserializeComponent, (Registry.find_ok s.registry id d).mpr registered, locate_none gone]

theorem deserialize_missing (registered : s.registry.get? id = some d) (home : Home s e l b t)
    (absent : t.components id = none) :
    s.deserializeComponent e id document = .ok (.error (.missingComponent e id), s) := by
  simp only [deserializeComponent, (Registry.find_ok s.registry id d).mpr registered, locate_some home.found,
    home.block, home.read_bytes, absent, ok_bind]
  rfl

theorem deserialize_refused (registered : s.registry.get? id = some d) (home : Home s e l b t)
    (present : t.components id ≠ none) {error : StoreError} (refused : d.deserialize document = .ok (.error error)) :
    s.deserializeComponent e id document = .ok (.error error, s) := by
  obtain ⟨old, held⟩ := Option.ne_none_iff_exists'.mp present
  simp only [deserializeComponent, (Registry.find_ok s.registry id d).mpr registered, locate_some home.found,
    home.block, home.read_bytes, held, refused, ok_bind]
  rfl

theorem deserialize_written (sound : s.Sound) (registered : s.registry.get? id = some d) (home : Home s e l b t)
    (present : t.components id ≠ none) {bytes : List UInt8} (length : bytes.length = d.size)
    (read : d.deserialize document = .ok (.ok bytes)) :
    ∃ next, s.deserializeComponent e id document = .ok (.ok (), next) ∧
      Becomes s next 0 (Function.update s.world e
        (some ⟨t.enabled, Function.update t.components id (some bytes)⟩)) s.slots := by
  obtain ⟨old, held⟩ := Option.ne_none_iff_exists'.mp present
  have stands := held
  rw [home.components] at stands
  obtain ⟨c, column, _⟩ := Option.map_eq_some_iff.mp stands
  obtain ⟨member, named⟩ := Block.column_member id c column
  have known := home.keeps.sound.laid.known c member
  rw [named] at known
  have same : c.descriptor = d := Option.some.inj (known.symm.trans registered)
  obtain ⟨nextBlock, wrote, change⟩ :=
    Block.set_bytes_ok home.keeps.sound l.row id bytes t home.tenant c column (same ▸ length)
  refine ⟨{ s with store := s.store.put l.block nextBlock }, ?_, rewrite_ok sound home change⟩
  simp only [deserializeComponent, (Registry.find_ok s.registry id d).mpr registered, locate_some home.found,
    home.block, home.read_bytes, held, read, wrote, ok_bind]
  rfl

theorem deserialize_component_ok (sound : s.Sound) (e : Entity) (id : ComponentId)
    (document : Document) :
    ∃ outcome next, s.deserializeComponent e id document = .ok (outcome, next) ∧
      match outcome with
      | .error error => next = s ∧ error.Expected ∧ ¬ ∃ content d bytes, s.world e = some content ∧
          content.components id ≠ none ∧ s.registry.get? id = some d ∧ d.serializable = true ∧
          d.type.shape.decode document = some bytes
      | .ok () => ∃ enabled components d bytes, s.world e = some ⟨enabled, components⟩ ∧
          components id ≠ none ∧ s.registry.get? id = some d ∧ d.serializable = true ∧
          d.type.shape.decode document = some bytes ∧
          Becomes s next 0 (Function.update s.world e
            (some ⟨enabled, Function.update components id (some bytes)⟩)) s.slots := by
  cases search : s.registry.find id with
  | error error =>
      refine ⟨_, s, deserialize_unregistered search, rfl, Registry.find_expected search, ?_⟩
      rintro ⟨_, d, _, _, _, registered, _⟩
      rw [(Registry.find_ok s.registry id d).mpr registered] at search
      contradiction
  | ok d =>
      have registered := (Registry.find_ok s.registry id d).mp search
      cases found : s.directory.location? e with
      | none =>
          refine ⟨_, s, deserialize_stale registered found, rfl, fun _ => by simp, ?_⟩
          rintro ⟨_, _, _, held, _⟩
          rw [dead_of_stale sound found] at held
          contradiction
      | some l =>
          obtain ⟨b, t, home⟩ := home_of sound found
          by_cases absent : t.components id = none
          · refine ⟨_, s, deserialize_missing registered home absent, rfl, fun _ => by simp, ?_⟩
            rintro ⟨_, _, _, lives, present, _⟩
            obtain rfl := Option.some.inj (home.world.symm.trans lives)
            exact present absent
          · rcases descriptor_deserialize sound registered document with
              ⟨bytes, serializable, decoded, length, read⟩ | ⟨error, expected, refused, unfit⟩
            · obtain ⟨next, done, becomes⟩ := deserialize_written sound registered home absent length read
              exact ⟨_, next, done, t.enabled, t.components, d, bytes, home.world, absent, registered,
                serializable, decoded, becomes⟩
            · refine ⟨_, s, deserialize_refused registered home absent refused, rfl, expected, ?_⟩
              rintro ⟨_, other, _, _, _, known, allowed, decoded⟩
              obtain rfl := Option.some.inj (registered.symm.trans known)
              exact unfit ⟨allowed, by simp [decoded]⟩

end Deserialize

end Scene

end EntityStore
