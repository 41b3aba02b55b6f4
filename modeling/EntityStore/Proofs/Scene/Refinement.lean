import EntityStore.Proofs.Scene.Runs

set_option autoImplicit false

namespace EntityStore

namespace World

def alter (w : World) (e : Entity) (change : Content → Content) : World :=
  Function.update w e ((w e).map change)

-- The map after a command with some outcome. An update of the hierarchy writes the matrices of its
-- nodes, a visit the values that it answers.
def after (registry : Registry) (nodes : List Node) (w : World) : Command → Outcome Reply → World
  | _, .error _ => w
  | .create signature, .ok (.entity e) =>
    Function.update w e (some ⟨true, registry.defaults signature⟩)
  | .spawn bundle, .ok (.entity e) => Function.update w e (some ⟨true, bundle.components⟩)
  | .destroy e, .ok _ => Function.update w e none
  | .enable e, .ok _ => w.alter e fun content => { content with enabled := true }
  | .disable e, .ok _ => w.alter e fun content => { content with enabled := false }
  | .add e value, .ok _ => w.alter e fun content => content.set value.type.id (some value.bytes)
  | .remove e type, .ok _ => w.alter e fun content => content.set type.id none
  | .replace e value, .ok _ => w.alter e fun content => content.set value.type.id (some value.bytes)
  | .deserialize e id document, .ok _ => w.alter e fun content => content.set id
      ((registry.get? id).bind fun d => d.type.shape.decode document)
  | .visit _ _ _, .ok (.rows _ rows) => w.assign (Scene.assignments rows)
  | .updateHierarchy, .ok _ => nodes.foldl (Hierarchy.stamp registry) w
  | .unload, .ok _ => fun _ => none
  | _, .ok _ => w

theorem alter_some {w : World} {e : Entity} {content : Content} (held : w e = some content)
    (change : Content → Content) : w.alter e change = Function.update w e (some (change content)) := by
  rw [alter, held, Option.map_some]

end World

namespace Scene

variable {s next last : Scene}

-- Everything that can be asked about an entity is as in a map.
structure Observes (s : Scene) (w : World) : Prop where
  alive : ∀ e, s.isAlive e = (w e).isSome
  enabled : ∀ e, s.isEnabled e = match w e with
    | none => .error (.staleEntity e)
    | some content => .ok content.enabled
  signature : ∀ e, match w e with
    | none => s.signatureOf e = .error (.staleEntity e)
    | some content => ∃ signature, s.signatureOf e = .ok signature ∧
        ∀ id, signature.contains id = (content.components id).isSome
  carries : ∀ e id, s.hasComponent e id = match w e with
    | none => .error (.staleEntity e)
    | some content => .ok (content.components id).isSome
  -- Components are read as the type that is registered under their id.
  reads : ∀ e type, s.registry.Knows type → match w e with
    | none => s.get e type = .ok (.error (.staleEntity e))
    | some content => match content.components type.id with
      | none => s.get e type = .ok (.error (.missingComponent e type.id))
      | some bytes => ∃ value, s.get e type = .ok (.ok value) ∧ value.type = type ∧ value.bytes = bytes

theorem observes_world (sound : s.Sound) : s.Observes s.world := by
  have cases (e : Entity) : (s.directory.location? e = none ∧ s.world e = none) ∨
      ∃ l b t, Home s e l b t := by
    cases found : s.directory.location? e with
    | none => exact Or.inl ⟨rfl, dead_of_stale sound found⟩
    | some l =>
        obtain ⟨b, t, home⟩ := home_of sound found
        exact Or.inr ⟨l, b, t, home⟩
  refine ⟨alive_iff_world sound, fun e => ?_, fun e => ?_, fun e id => ?_, fun e type known => ?_⟩ <;>
    rcases cases e with ⟨gone, dead⟩ | ⟨l, b, t, home⟩
  · rw [dead, isEnabled, locate_none gone]
    rfl
  · rw [home.world, is_enabled_ok home]
    rfl
  · rw [dead]
    exact signature_of_stale gone
  · rw [home.world]
    exact ⟨b.signature, signature_of_ok home, signed home⟩
  · rw [dead, hasComponent, signature_of_stale gone]
    rfl
  · rw [home.world, hasComponent, signature_of_ok home]
    exact congrArg Except.ok (signed home id)
  · rw [dead]
    exact get_stale gone type
  · rw [home.world]
    show match t.components type.id with
      | none => _
      | some bytes => _
    rcases get_ok sound home type with ⟨value, got, same, _, held⟩ | ⟨missing, absent⟩
    · rw [held]
      exact ⟨value, got, same, rfl⟩
    · have none : t.components type.id = none := by
        by_contra present
        exact absent ⟨known, present⟩
      rw [none]
      exact missing

theorem steps_after {command : Command} {outcome : Outcome Reply} {world : World} {slots : Slots}
    (steps : Steps s next command outcome world slots) :
    world = s.world.after s.registry next.hierarchy.tree.levels.flatten command outcome := by
  cases steps with
  | refused command error _ => cases command <;> rfl
  | uncreated command _ error _ _ => cases command <;> rfl
  | create => rfl
  | spawn => rfl
  | destroy => rfl
  | enable e content held => rw [World.after, World.alter_some held]
  | disable e content held => rw [World.after, World.alter_some held]
  | add e value content held => rw [World.after, World.alter_some held]
  | remove e type content old held => rw [World.after, World.alter_some held]
  | replace e value content old held => rw [World.after, World.alter_some held]
  | deserialize e id document content d bytes held _ registered _ decoded =>
      have read : ((s.registry.get? id).bind fun d => d.type.shape.decode document) = some bytes := by
        rw [registered]
        exact decoded
      rw [World.after, World.alter_some held, read]
  | quiet command reply quiet =>
      cases command <;> first | exact False.elim quiet | (cases reply <;> rfl)
  | visit => rfl
  | updateHierarchy => rfl
  | unload => rfl

theorem steps_grant {command : Command} {reply : Reply} {world : World} {slots : Slots}
    (steps : Steps s next command (.ok reply) world slots) :
    s.world.Grants s.registry command reply := by
  cases steps with
  | create _ e unused => exact ⟨e, rfl, unused⟩
  | spawn _ e unused => exact ⟨e, rfl, unused⟩
  | destroy e content held => exact Option.isSome_iff_exists.mpr ⟨content, held⟩
  | enable e content held => exact Option.isSome_iff_exists.mpr ⟨content, held⟩
  | disable e content held => exact Option.isSome_iff_exists.mpr ⟨content, held⟩
  | add e value content held absent known => exact ⟨known, content, held, absent⟩
  | remove e type content old held same known had => exact ⟨known, content, old, rfl, same, held, had⟩
  | replace e value content old held same known had => exact ⟨known, content, old, rfl, same, held, had⟩
  | deserialize e id document content d bytes held present registered serializable decoded =>
      exact ⟨content, d, bytes, held, present, registered, serializable, decoded⟩
  | quiet command reply quiet => cases command <;> trivial
  | visit _ _ _ distinct v rows => exact ⟨distinct, v, rows, rfl⟩
  | updateHierarchy => trivial
  | unload => trivial

theorem steps_denied {command : Command} {error : StoreError} {world : World} {slots : Slots}
    (steps : Steps s next command (.error error) world slots) (sure : command.Sure) (reply : Reply) :
    ¬ s.world.Grants s.registry command reply := by
  cases steps with
  | refused _ _ denied => exact denied sure reply
  | uncreated _ creates => cases command <;> first | exact False.elim sure | exact False.elim creates

def mirror (s : Scene) (w : World) : List Command → World
  | [] => w
  | command :: rest =>
    match s.perform command with
    | .error _ => w
    | .ok (outcome, next) =>
      next.mirror (w.after s.registry next.hierarchy.tree.levels.flatten command outcome) rest

theorem run_mirrored {commands : List Command} {outcomes : List (Outcome Reply)} (sound : s.Sound)
    (ran : s.performAll commands = .ok (outcomes, last)) : last.world = s.mirror s.world commands := by
  induction commands generalizing s outcomes with
  | nil =>
      obtain ⟨_, rfl⟩ := Prod.mk.inj (Except.ok.inj ran)
      rfl
  | cons command rest ih =>
      obtain ⟨outcome, middle, following, performed, went, rfl⟩ := (perform_all_cons_iff command rest).mp ran
      obtain ⟨world, slots, steps, becomes⟩ := performed_step sound performed
      rw [ih becomes.sound went, becomes.world, steps_after steps, mirror, performed]

/-- After every history of a new scene, and after one more command, the scene is as the map that the
history leads to. The command succeeds only if the map grants it, and if the map grants it the command
is refused only for want of room or for the sake of the hierarchy. -/
theorem run_refines {name : String} {settings : Settings} {registry : Registry} {first : Scene}
    {commands : List Command} {outcomes : List (Outcome Reply)} (genuine : registry.Genuine)
    (made : create name settings registry = .ok (.ok first))
    (ran : first.performAll commands = .ok (outcomes, s)) :
    s.Observes (first.mirror (fun _ => none) commands) ∧
      ∀ command outcome next, s.perform command = .ok (outcome, next) →
        next.Observes ((first.mirror (fun _ => none) commands).after registry
          next.hierarchy.tree.levels.flatten command outcome) ∧
        (∀ reply, outcome = .ok reply →
          (first.mirror (fun _ => none) commands).Grants registry command reply) ∧
        ∀ error, outcome = .error error → command.Sure →
          ∀ reply, ¬ (first.mirror (fun _ => none) commands).Grants registry command reply := by
  have blank := blank_of_created genuine made
  obtain ⟨sound, alike⟩ := run_sound blank.sound ran
  have mirrored := run_mirrored blank.sound ran
  rw [blank.world] at mirrored
  have known : s.registry = registry := (alike.registry : s.registry = first.registry).trans blank.registry
  rw [← mirrored, ← known]
  refine ⟨observes_world sound, fun command outcome next performed => ?_⟩
  obtain ⟨world, slots, steps, becomes⟩ := performed_step sound performed
  rw [← steps_after steps, ← becomes.world]
  refine ⟨observes_world becomes.sound, fun reply succeeded => ?_, fun error failed => ?_⟩
  · subst succeeded
    exact steps_grant steps
  · subst failed
    exact steps_denied steps

theorem run_refines_disabled : ∃ first outcomes s, create "world" .least .builtins = .ok (.ok first) ∧
    first.performAll [.create (.ofList [ComponentType.light.id]), .disable ⟨0, 1⟩] = .ok (outcomes, s) ∧
    s.Observes (first.mirror (fun _ => none)
      [.create (.ofList [ComponentType.light.id]), .disable ⟨0, 1⟩]) := by
  obtain ⟨first, outcomes, s, made, ran⟩ : ∃ first outcomes s,
      create "world" .least .builtins = .ok (.ok first) ∧
        first.performAll [.create (.ofList [ComponentType.light.id]), .disable ⟨0, 1⟩] =
          .ok (outcomes, s) := ⟨_, _, _, rfl, rfl⟩
  exact ⟨first, outcomes, s, made, ran, (run_refines Registry.builtins_genuine made ran).1⟩

end Scene

end EntityStore
