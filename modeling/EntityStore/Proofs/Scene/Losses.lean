import EntityStore.Proofs.Scene.Edits
import EntityStore.Proofs.Scene.Forest
import EntityStore.Proofs.Scene.Handles
import EntityStore.Proofs.Scene.Partition
import EntityStore.Proofs.Scene.Refinement

set_option autoImplicit false

namespace EntityStore

namespace Event

def entity : Event → Entity
  | .enabled e _ | .disabled e _ | .destroyed e _ | .released e _ _ => e

def ends (e : Entity) : Event → Bool
  | .destroyed f _ => e = f
  | _ => false

def freed? (e : Entity) (c : ComponentId) : Event → Option (List UInt8)
  | .released f id bytes => if e = f ∧ id = c then some bytes else none
  | _ => none

end Event

namespace Command

def ends (e : Entity) : Command → Outcome Reply → Bool
  | .destroy f, .ok _ => e = f
  | .unload, .ok _ => true
  | _, _ => false

def drops (e : Entity) (c : ComponentId) : Command → Outcome Reply → Bool
  | .destroy f, .ok _ => e = f
  | .remove f type, .ok _ => decide (e = f ∧ c = type.id)
  | .unload, .ok _ => true
  | _, _ => false

def gains (e : Entity) (c : ComponentId) : Command → Outcome Reply → Bool
  | .create signature, .ok (.entity f) => decide (e = f) && signature.contains c
  | .spawn bundle, .ok (.entity f) => decide (e = f) && bundle.signature.contains c
  | .add f value, .ok _ => decide (e = f ∧ c = value.type.id)
  | _, _ => false

variable {e : Entity} {c : ComponentId} {outcome : Outcome Reply} (command : Command)

theorem lasting_ends (lasting : ∀ reply, outcome = .ok reply → ¬ command.Parts) :
    command.ends e outcome = false := by
  cases outcome with
  | error error => cases command <;> rfl
  | ok reply => cases command <;> first | rfl | exact absurd trivial (lasting reply rfl)

theorem lasting_drops (lasting : ∀ reply, outcome = .ok reply → ¬ command.Parts) :
    command.drops e c outcome = false := by
  cases outcome with
  | error error => cases command <;> rfl
  | ok reply => cases command <;> first | rfl | exact absurd trivial (lasting reply rfl)

end Command

inductive Turn : Bool → Bool → Bool → Bool → Prop where
  | kept (held : Bool) : Turn held false false held
  | came : Turn false true false true
  | went (held : Bool) : Turn held false true false

namespace Turn

variable {before came went after : Bool}

theorem balance (turn : Turn before came went after) :
    (before && !after).toNat + after.toNat = before.toNat + came.toNat := by
  cases turn with
  | kept => cases before <;> rfl
  | came => rfl
  | went => cases before <;> rfl

theorem lost (turn : Turn before came went after) : (before && !after) = (went && before) := by
  cases turn with
  | kept => cases before <;> rfl
  | came => rfl
  | went => cases before <;> rfl

end Turn

namespace Registry

def owns (r : Registry) (c : ComponentId) : Bool := (r.get? c).any Descriptor.ownsResource

theorem owned_known {r : Registry} {c : ComponentId} (owned : r.owns c = true) :
    (r.get? c).isSome = true := by
  rw [owns] at owned
  cases found : r.get? c with
  | none =>
      rw [found] at owned
      contradiction
  | some d => rfl

end Registry

namespace World

variable {w v : World} {e : Entity} {c : ComponentId}

def bytes? (w : World) (e : Entity) (c : ComponentId) : Option (List UInt8) :=
  (w e).bind fun content => content.components c

structure Peers (w v : World) : Prop where
  alive : ∀ e, (v e).isSome = (w e).isSome
  carries : ∀ e c, (v.bytes? e c).isSome = (w.bytes? e c).isSome

theorem Peers.refl (w : World) : Peers w w := ⟨fun _ => rfl, fun _ _ => rfl⟩

theorem Peers.trans {u : World} (first : Peers w v) (second : Peers v u) : Peers w u :=
  ⟨fun e => (second.alive e).trans (first.alive e),
    fun e c => (second.carries e c).trans (first.carries e c)⟩

theorem bytes_some {content : Content} (held : w e = some content) :
    w.bytes? e c = content.components c := by
  rw [bytes?, held, Option.bind_some]

theorem bytes_update (w : World) (f : Entity) (held : Option Content) (e : Entity) (c : ComponentId) :
    World.bytes? (Function.update w f held) e c =
      if e = f then held.bind fun content => content.components c else w.bytes? e c := by
  rw [bytes?, Function.update_apply]
  by_cases same : e = f
  · rw [if_pos same, if_pos same]
  · rw [if_neg same, if_neg same]
    rfl

theorem alive_update {f : Entity} {content : Content} (final : Content) (held : w f = some content)
    (e : Entity) : (Function.update w f (some final) e).isSome = (w e).isSome := by
  rw [Function.update_apply]
  by_cases here : e = f
  · rw [if_pos here, here, held]
    rfl
  · rw [if_neg here]

theorem peers_update {f : Entity} {content : Content} (final : Content) (held : w f = some content)
    (same : ∀ c, (final.components c).isSome = (content.components c).isSome) :
    Peers w (Function.update w f (some final)) := by
  refine ⟨alive_update final held, fun e c => ?_⟩
  rw [bytes_update]
  by_cases here : e = f
  · rw [if_pos here, here, bytes_some held]
    exact same c
  · rw [if_neg here]

theorem bytes_set {f : Entity} {content : Content} (held : w f = some content) (id : ComponentId)
    (bytes : Option (List UInt8)) (e : Entity) (c : ComponentId) :
    World.bytes? (Function.update w f (some (content.set id bytes))) e c =
      if e = f ∧ c = id then bytes else w.bytes? e c := by
  rw [bytes_update]
  by_cases here : e = f
  · rw [if_pos here, here, bytes_some held, Option.bind_some, Content.set_apply]
    simp
  · rw [if_neg here, if_neg fun both => here both.1]

theorem set_peers {content : Content} {bytes : List UInt8} (present : content.components c ≠ none)
    (d : ComponentId) :
    ((content.set c (some bytes)).components d).isSome = (content.components d).isSome := by
  rw [Content.set_apply]
  by_cases here : d = c
  · rw [if_pos here, here, Option.isSome_iff_ne_none.mpr present]
    rfl
  · rw [if_neg here]

theorem write_peers (w : World) (f : Entity) (id : ComponentId) (bytes : List UInt8) :
    Peers w (w.write f id bytes) := by
  cases held : w f with
  | none =>
      rw [write, held]
      exact .refl w
  | some content =>
      by_cases absent : content.components id = none
      · simp only [write, held, if_pos absent]
        exact .refl w
      · rw [write_present held absent]
        exact peers_update _ held (set_peers absent)

theorem assign_peers (w : World) (written : List (Entity × Component)) : Peers w (w.assign written) := by
  induction written generalizing w with
  | nil => exact .refl _
  | cons p rest ih => exact (write_peers w p.1 p.2.type.id p.2.bytes).trans (ih _)

theorem stamped_peers (registry : Registry) (world : Option Mat4) (content : Content) (c : ComponentId) :
    ((Hierarchy.stamped registry world content).components c).isSome = (content.components c).isSome := by
  cases world with
  | none => rfl
  | some matrix =>
      rw [Hierarchy.stamped]
      split
      · next present => exact set_peers present.2 c
      · rfl

theorem stamp_peers (registry : Registry) (w : World) (node : Node) :
    Peers w (Hierarchy.stamp registry w node) := by
  cases held : w node.entity with
  | none =>
      rw [Hierarchy.stamp_dead held]
      exact .refl w
  | some content =>
      rw [Hierarchy.stamp_held held]
      exact peers_update _ held (stamped_peers registry node.world content)

theorem stamps_peers (registry : Registry) (w : World) (nodes : List Node) :
    Peers w (nodes.foldl (Hierarchy.stamp registry) w) := by
  induction nodes generalizing w with
  | nil => exact .refl _
  | cons node rest ih => exact (stamp_peers registry w node).trans (ih _)

end World

namespace Scene

open Checked

variable {s next last : Scene} {e : Entity} {c : ComponentId} {command : Command} {outcome : Outcome Reply}
  {world : World} {slots : Slots}

section Turns

theorem turn_of_peers {w v : World} (peers : World.Peers w v) (e : Entity) (known : ComponentId → Prop) :
    Turn (w e).isSome false false (v e).isSome ∧
      ∀ c, known c → Turn (w.bytes? e c).isSome false false (v.bytes? e c).isSome := by
  rw [peers.alive]
  refine ⟨.kept _, fun c _ => ?_⟩
  rw [peers.carries]
  exact .kept _

theorem turn_of_created {w : World} {f : Entity} {components : Components} {signature : Signature}
    {known : ComponentId → Prop} (unused : w f = none)
    (listed : ∀ c, known c → (components c).isSome = signature.contains c) (e : Entity) :
    Turn (w e).isSome (some f = some e) false (Function.update w f (some ⟨true, components⟩) e).isSome ∧
      ∀ c, known c → Turn (w.bytes? e c).isSome (decide (e = f) && signature.contains c) false
        (World.bytes? (Function.update w f (some ⟨true, components⟩)) e c).isSome := by
  rw [Function.update_apply]
  by_cases here : e = f
  · subst here
    rw [if_pos rfl, unused]
    simp only [decide_true, Bool.true_and]
    refine ⟨.came, fun c registered => ?_⟩
    rw [World.bytes_update, if_pos rfl, World.bytes?, unused, Option.bind_some, listed c registered]
    cases signature.contains c with
    | false => exact .kept false
    | true => exact .came
  · rw [if_neg here]
    simp only [Option.some.injEq, here, Ne.symm here, decide_false, Bool.false_and]
    refine ⟨.kept _, fun c _ => ?_⟩
    rw [World.bytes_update, if_neg here]
    exact .kept _

theorem steps_turn (steps : Steps s next command outcome world slots) (e : Entity) :
    Turn (s.world e).isSome (issuedBy command outcome = some e) (command.ends e outcome) (world e).isSome ∧
      ∀ c, (s.registry.get? c).isSome = true → Turn (s.world.bytes? e c).isSome
        (command.gains e c outcome) (command.drops e c outcome) (world.bytes? e c).isSome := by
  have failed (command : Command) (error : StoreError) :
      Turn (s.world e).isSome (issuedBy command (.error error) = some e) (command.ends e (.error error))
          (s.world e).isSome ∧
        ∀ c, (s.registry.get? c).isSome = true → Turn (s.world.bytes? e c).isSome
          (command.gains e c (.error error)) (command.drops e c (.error error))
          (s.world.bytes? e c).isSome := by
    cases command <;> exact ⟨.kept _, fun _ _ => .kept _⟩
  cases steps with
  | refused command error => exact failed command error
  | uncreated command _ error => exact failed command error
  | create signature f unused =>
      refine turn_of_created unused (fun c known => ?_) e
      rw [Registry.defaults]
      cases signature.contains c with
      | false => rfl
      | true => rw [if_pos rfl, Option.isSome_map, known]
  | spawn bundle f unused => exact turn_of_created unused (fun c _ => bundle.components_some c) e
  | destroy f content held =>
      rw [Function.update_apply]
      by_cases here : e = f
      · subst here
        simp only [if_pos, Command.ends, Command.drops, decide_true, World.bytes_update]
        exact ⟨.went _, fun _ _ => .went _⟩
      · simp only [Command.ends, Command.drops, here, decide_false, World.bytes_update]
        exact ⟨.kept _, fun _ _ => .kept _⟩
  | enable f content held =>
      exact turn_of_peers (World.peers_update { content with enabled := true } held fun _ => rfl) e _
  | disable f content held =>
      exact turn_of_peers (World.peers_update { content with enabled := false } held fun _ => rfl) e _
  | replace f value content old held _ _ had =>
      exact turn_of_peers (World.peers_update _ held (World.set_peers (by simp [had]))) e _
  | deserialize f id document content d bytes held present =>
      exact turn_of_peers (World.peers_update _ held (World.set_peers present)) e _
  | add f value content held absent =>
      rw [World.alive_update _ held]
      refine ⟨.kept _, fun c _ => ?_⟩
      rw [World.bytes_set held, Command.gains]
      by_cases here : e = f ∧ c = value.type.id
      · have nothing : s.world.bytes? e c = none := by rw [here.1, here.2, World.bytes_some held, absent]
        rw [if_pos here, decide_eq_true here, nothing]
        exact .came
      · rw [if_neg here, decide_eq_false here]
        exact .kept _
  | remove f type content old held =>
      rw [World.alive_update _ held]
      refine ⟨.kept _, fun c _ => ?_⟩
      rw [World.bytes_set held, Command.drops]
      by_cases here : e = f ∧ c = type.id
      · rw [if_pos here, decide_eq_true here]
        exact .went _
      · rw [if_neg here, decide_eq_false here]
        exact .kept _
  | quiet command reply quiet =>
      cases command <;> first | exact False.elim quiet | exact turn_of_peers (.refl _) e _
  | visit => exact turn_of_peers (World.assign_peers _ _) e _
  | updateHierarchy => exact turn_of_peers (World.stamps_peers _ _ _) e _
  | unload => exact ⟨.went _, fun _ _ => .went _⟩

end Turns

def about (events : List Event) (e : Entity) : List Event := events.filter fun event => e = event.entity

def endings (events : List Event) (e : Entity) : Nat := events.countP (Event.ends e)

def freed (events : List Event) (e : Entity) (c : ComponentId) : List (List UInt8) :=
  events.filterMap (Event.freed? e c)

section Events

variable {registry : Registry} {b : Block}

theorem endings_about (events : List Event) (e : Entity) : endings (about events e) e = endings events e := by
  rw [endings, endings, about, List.countP_filter]
  refine congrArg (fun p => List.countP p events) (funext fun event => ?_)
  cases event with
  | destroyed f signature => exact Bool.and_self _
  | _ => rfl

theorem freed_about (events : List Event) (e : Entity) (c : ComponentId) :
    freed (about events e) e c = freed events e c := by
  rw [freed, freed, about, List.filterMap_filter]
  refine congrArg (fun f => List.filterMap f events) (funext fun event => ?_)
  cases event with
  | released f id bytes =>
      by_cases same : e = f <;> simp [Event.freed?, Event.entity, same]
  | _ => exact ite_self none

theorem endings_mild {events : List Event} (mild : ∀ event ∈ events, ¬ event.Parting) (e : Entity) :
    endings events e = 0 := by
  refine List.countP_eq_zero.mpr fun event member => ?_
  cases event with
  | destroyed => exact absurd trivial (mild _ member)
  | _ => exact Bool.false_ne_true

theorem freed_mild {events : List Event} (mild : ∀ event ∈ events, ¬ event.Parting) (e : Entity)
    (c : ComponentId) : freed events e c = [] := by
  refine List.filterMap_eq_nil_iff.mpr fun event member => ?_
  cases event with
  | released => exact absurd trivial (mild _ member)
  | _ => rfl

theorem filter_map_column {α : Type} (laid : b.Laid registry) (c : ComponentId)
    (value : Column → Option α) :
    b.columns.filterMap (fun column => if column.descriptor.id = c then value column else none) =
      ((b.column? c).bind value).toList := by
  have distinct : (b.columns.map fun column => column.descriptor.id).Nodup := by
    rw [laid.listed]
    exact Signature.nodup_ids b.signature
  rw [Block.column?]
  revert distinct
  induction b.columns with
  | nil => exact fun _ => rfl
  | cons column rest ih =>
      intro distinct
      obtain ⟨fresh, distinct⟩ := List.nodup_cons.mp distinct
      by_cases here : column.descriptor.id = c
      · have others :
            rest.filterMap (fun column => if column.descriptor.id = c then value column else none) = [] := by
          refine List.filterMap_eq_nil_iff.mpr fun other member => if_neg fun same => ?_
          exact fresh (List.mem_map.mpr ⟨other, member, same.trans here.symm⟩)
        rw [List.find?_cons_of_pos (by simpa using here), List.filterMap_cons, if_pos here, others,
          Option.bind_some]
        cases value column <;> rfl
      · rw [List.find?_cons_of_neg (by simpa using here), List.filterMap_cons, if_neg here, ih distinct]

theorem freed_releases (laid : b.Laid registry) (f e : Entity) (row : Nat) (kept : Signature)
    (c : ComponentId) :
    freed (releasesOf f b row kept) e c =
      if e = f ∧ kept.contains c = false ∧ registry.owns c = true then (b.bytesAt? c row).toList else [] := by
  have one (column : Column) (member : column ∈ b.columns) :
      ((if column.descriptor.ownsResource && !kept.contains column.descriptor.id then
          (b.bytesAt? column.descriptor.id row).map (Event.released f column.descriptor.id) else none).bind
        (Event.freed? e c)) =
      if column.descriptor.id = c then
        if e = f ∧ kept.contains c = false ∧ registry.owns c = true then b.bytesAt? c row else none
      else none := by
    by_cases here : column.descriptor.id = c
    · have owns : registry.owns c = column.descriptor.ownsResource := by
        rw [Registry.owns, ← here, laid.known column member, Option.any_some]
      rw [if_pos here, here, owns]
      cases b.bytesAt? c row <;> cases column.descriptor.ownsResource <;> cases kept.contains c <;>
        simp [Event.freed?]
    · rw [if_neg here]
      split
      · cases b.bytesAt? column.descriptor.id row <;> simp [Event.freed?, here]
      · rfl
  rw [freed, releasesOf, releasesIn, List.filterMap_filterMap, List.filterMap_congr one, filter_map_column laid]
  cases found : b.column? c with
  | none =>
      have absent : b.bytesAt? c row = none := by simp [Block.bytesAt?, found]
      rw [absent, Option.bind_none, Option.toList_none, ite_id]
  | some column =>
      rw [Option.bind_some]
      split <;> rfl

theorem releases_losses (f : Entity) (b : Block) (row : Nat) (kept : Signature) :
    ∃ losses : List (ComponentId × List UInt8),
      releasesOf f b row kept = losses.map fun p => .released f p.1 p.2 := by
  refine ⟨b.columns.filterMap fun column =>
    if column.descriptor.ownsResource && !kept.contains column.descriptor.id then
      (b.bytesAt? column.descriptor.id row).map (Prod.mk column.descriptor.id) else none, ?_⟩
  rw [releasesOf, releasesIn, List.map_filterMap]
  refine List.filterMap_congr fun column _ => ?_
  by_cases owned : (column.descriptor.ownsResource && !kept.contains column.descriptor.id) = true
  · simp only [if_pos owned, Option.map_map]
    rfl
  · simp only [if_neg owned, Option.map_none]

theorem releases_about (f e : Entity) (b : Block) (row : Nat) (kept : Signature) :
    about (releasesOf f b row kept) e = if e = f then releasesOf f b row kept else [] := by
  obtain ⟨losses, released⟩ := releases_losses f b row kept
  rw [released, about, List.filter_map]
  by_cases same : e = f
  · rw [if_pos same]
    exact congrArg _ (List.filter_eq_self.mpr fun p _ => decide_eq_true same)
  · rw [if_neg same, List.map_eq_nil_iff]
    exact List.filter_eq_nil_iff.mpr fun p _ => by simp [Event.entity, same]

theorem farewell_about (f e : Entity) (b : Block) (row : Nat) :
    about (farewellOf f b row) e = if e = f then farewellOf f b row else [] := by
  rw [farewellOf, about, List.filter_cons, ← about, releases_about]
  by_cases same : e = f <;> simp [same, Event.entity]

theorem endings_farewell (f e : Entity) (b : Block) (row : Nat) :
    endings (farewellOf f b row) e = if e = f then 1 else 0 := by
  obtain ⟨losses, released⟩ := releases_losses f b row .empty
  have none : endings (releasesOf f b row .empty) e = 0 := by
    rw [released, endings, List.countP_map]
    exact List.countP_eq_zero.mpr fun _ _ => Bool.false_ne_true
  rw [farewellOf, endings, List.countP_cons, ← endings, none, Nat.zero_add]
  by_cases same : e = f <;> simp [Event.ends, same]

theorem flat_map_single {α β : Type} {items : List α} (distinct : items.Nodup) {a : α} (member : a ∈ items)
    {f : α → List β} (others : ∀ other ∈ items, other ≠ a → f other = []) : items.flatMap f = f a := by
  obtain ⟨before, after, rfl⟩ := List.append_of_mem member
  obtain ⟨_, distinct, apart⟩ := List.nodup_append.mp distinct
  obtain ⟨fresh, _⟩ := List.nodup_cons.mp distinct
  have first : before.flatMap f = [] := List.flatMap_eq_nil_iff.mpr fun other listed =>
    others other (List.mem_append_left _ listed) (apart other listed a List.mem_cons_self)
  have rest : after.flatMap f = [] := List.flatMap_eq_nil_iff.mpr fun other listed =>
    others other (List.mem_append_right _ (List.mem_cons_of_mem a listed)) fun same => fresh (same ▸ listed)
  rw [List.flatMap_append, List.flatMap_cons, first, rest, List.append_nil, List.nil_append]

def lastWords (s : Scene) (spot : Spot) : List Event :=
  match s.store.block? spot.1 with
  | none => []
  | some b => farewellOf (b.entitySlot spot.2) b spot.2

theorem last_words_all (s : Scene) :
    ((s.store.blocks.map Prod.snd).flatMap farewellsOf) = s.store.spots.flatMap s.lastWords := by
  rw [Store.spots, List.flatMap_assoc, List.flatMap_map]
  refine List.flatMap_congr fun p listed => ?_
  rw [farewellsOf, List.flatMap_map]
  refine List.flatMap_congr fun row _ => ?_
  rw [lastWords, (Store.mem_blocks s.store p.1 p.2).mp listed]

theorem unload_about (sound : s.Sound) (e : Entity) :
    (s.isAlive e = false ∧ about ((s.store.blocks.map Prod.snd).flatMap farewellsOf) e = []) ∨
      ∃ l b t, Home s e l b t ∧
        about ((s.store.blocks.map Prod.snd).flatMap farewellsOf) e = farewellOf e b l.row := by
  -- Words are told at a spot about the entity that lives there, and at no other spot about it.
  have words (spot : Spot) (t : Tenant) (held : s.store.tenant? spot = some t) :
      ∃ b, s.store.block? spot.1 = some b ∧
        about (s.lastWords spot) e = if e = t.entity then farewellOf e b spot.2 else [] := by
    obtain ⟨b, found, tenant⟩ := Option.bind_eq_some_iff.mp held
    obtain ⟨_, name, _⟩ := Block.tenant_side spot.2 t tenant
    refine ⟨b, found, ?_⟩
    rw [lastWords, found, name]
    simp only [farewell_about]
    split
    · next same => rw [same]
    · rfl
  rw [last_words_all, about, List.filter_flatMap]
  cases found : s.directory.location? e with
  | none =>
      refine Or.inl ⟨by rw [isAlive, Directory.alive_eq, found]; rfl, ?_⟩
      refine List.flatMap_eq_nil_iff.mpr fun spot listed => ?_
      obtain ⟨t, held⟩ := (Store.mem_spots sound.store spot).mp listed
      obtain ⟨b, _, told⟩ := words spot t held
      refine told.trans (if_neg fun same => ?_)
      have known : s.directory.location? t.entity = _ := sound.matched.known spot t held
      rw [← same, found] at known
      contradiction
  | some l =>
      obtain ⟨b, t, home⟩ := home_of sound found
      have held : s.store.tenant? l.spot = some t := home.held
      refine Or.inr ⟨l, b, t, home, ?_⟩
      rw [flat_map_single s.store.nodup_spots ((Store.mem_spots sound.store l.spot).mpr ⟨t, held⟩)]
      · obtain ⟨c, block, told⟩ := words l.spot t held
        obtain rfl := Option.some.inj (home.block.symm.trans block)
        exact told.trans (if_pos home.entity.symm)
      · intro other listed away
        obtain ⟨t', held'⟩ := (Store.mem_spots sound.store other).mp listed
        obtain ⟨_, _, told⟩ := words other t' held'
        refine told.trans (if_neg fun same => away ?_)
        exact Housing.spot_unique sound.matched t held' held (same.symm.trans home.entity.symm)

end Events

def bytesOf? (s : Scene) (e : Entity) (c : ComponentId) : Option (List UInt8) :=
  match s.blockOf e with
  | .error _ => none
  | .ok (block, row) => block.bytesAt? c row

def carries (s : Scene) (e : Entity) (c : ComponentId) : Bool :=
  match s.hasComponent e c with
  | .error _ => false
  | .ok found => found

def lost? (s next : Scene) (e : Entity) (c : ComponentId) : Option (List UInt8) :=
  if next.carries e c then none else s.bytesOf? e c

section Step

variable {told : List Event} {l : Location} {b : Block} {t : Tenant}

theorem bytes_of_home (home : Home s e l b t) (c : ComponentId) :
    s.bytesOf? e c = b.bytesAt? c l.row ∧ s.world.bytes? e c = b.bytesAt? c l.row := by
  have occupied : b.isOccupied l.row = true := by
    rw [Block.occupied_iff, home.side]
    rfl
  refine ⟨by simp only [bytesOf?, home.block_of], ?_⟩
  rw [World.bytes_some home.world, Block.bytesAt?, if_pos occupied]
  exact congrFun home.components c

theorem bytes_of_world (sound : s.Sound) (e : Entity) (c : ComponentId) :
    s.bytesOf? e c = s.world.bytes? e c := by
  cases found : s.directory.location? e with
  | none =>
      rw [World.bytes?, dead_of_stale sound found, Option.bind_none, bytesOf?]
      simp only [blockOf, locate_none found]
  | some l =>
      obtain ⟨b, t, home⟩ := home_of sound found
      rw [(bytes_of_home home c).1, (bytes_of_home home c).2]

theorem carries_world (sound : s.Sound) (e : Entity) (c : ComponentId) :
    s.carries e c = (s.world.bytes? e c).isSome := by
  rw [carries, (observes_world sound).carries e c, World.bytes?]
  cases s.world e <;> rfl

theorem freed_told (sound : s.Sound) (spoken : Says s command outcome told) (e : Entity) (c : ComponentId) :
    freed told e c =
      if command.drops e c outcome = true ∧ s.registry.owns c = true then (s.world.bytes? e c).toList
      else [] := by
  -- A farewell releases whatever the entity has.
  have farewell_freed (f : Entity) (l : Location) (b : Block) (t : Tenant) (home : Home s f l b t) :
      freed (farewellOf f b l.row) e c =
        if e = f ∧ s.registry.owns c = true then (s.world.bytes? e c).toList else [] := by
    have tail : freed (farewellOf f b l.row) e c = freed (releasesOf f b l.row .empty) e c := rfl
    rw [tail, freed_releases home.keeps.sound.laid]
    by_cases same : e = f
    · subst same
      rw [(bytes_of_home home c).2]
      simp
    · rw [if_neg fun both => same both.1, if_neg fun both => same both.1]
  cases spoken with
  | destroy f l b t home =>
      rw [farewell_freed f l b t home]
      simp [Command.drops]
  | remove f type value l b t home =>
      rw [freed_releases home.keeps.sound.laid, Signature.contains_erase]
      by_cases same : e = f
      · subst same
        have own : t.content.components c = t.components c := rfl
        rw [← (bytes_of_home home c).2, World.bytes_some home.world, own, signed home]
        by_cases here : c = type.id
        · simp [Command.drops, here]
        · cases t.components c <;> simp [Command.drops, here, Ne.symm here]
      · simp [Command.drops, same]
  | unload =>
      rw [← freed_about]
      rcases unload_about sound e with ⟨dead, told⟩ | ⟨l, b, t, home, told⟩
      · rw [alive_iff_world sound, Option.isSome_eq_false_iff, Option.isNone_iff_eq_none] at dead
        rw [told, World.bytes?, dead]
        simp [freed]
      · rw [told, farewell_freed e l b t home]
        simp [Command.drops]
  | other _ _ _ lasting mild =>
      rw [freed_mild mild, command.lasting_drops lasting]
      rfl

theorem endings_told (sound : s.Sound) (spoken : Says s command outcome told) (e : Entity) :
    endings told e = (command.ends e outcome && s.isAlive e).toNat := by
  cases spoken with
  | destroy f l b t home =>
      have alive : s.isAlive f = true := (alive_iff s f).mpr ⟨l, home.found⟩
      rw [endings_farewell]
      by_cases same : e = f
      · rw [if_pos same, same, alive]
        simp [Command.ends]
      · simp [Command.ends, same]
  | remove f type value l b t home =>
      obtain ⟨losses, released⟩ := releases_losses f b l.row (b.signature.erase type.id)
      rw [released, endings, List.countP_map]
      exact List.countP_eq_zero.mpr fun _ _ => Bool.false_ne_true
  | unload =>
      rw [← endings_about]
      rcases unload_about sound e with ⟨dead, told⟩ | ⟨l, b, t, home, told⟩
      · rw [told, dead]
        rfl
      · rw [told, endings_farewell, if_pos rfl, (alive_iff s e).mpr ⟨l, home.found⟩]
        rfl
  | other _ _ _ lasting mild =>
      rw [endings_mild mild, command.lasting_ends lasting]
      rfl

theorem heralded_told (sound : s.Sound) (spoken : Says s command outcome told) (alive : s.isAlive e = true)
    (ended : command.ends e outcome = true) :
    ∃ (signature : Signature) (losses : List (ComponentId × List UInt8)),
      about told e = .destroyed e signature :: losses.map fun p => .released e p.1 p.2 := by
  have farewells (l : Location) (b : Block) :
      ∃ (signature : Signature) (losses : List (ComponentId × List UInt8)),
        farewellOf e b l.row = .destroyed e signature :: losses.map fun p => .released e p.1 p.2 := by
    obtain ⟨losses, released⟩ := releases_losses e b l.row .empty
    exact ⟨b.signature, losses, congrArg (List.cons _) released⟩
  cases spoken with
  | destroy f l b t home =>
      have same : e = f := of_decide_eq_true ended
      rw [farewell_about, if_pos same, ← same]
      exact farewells l b
  | remove => contradiction
  | unload =>
      rcases unload_about sound e with ⟨dead, _⟩ | ⟨l, b, t, home, words⟩
      · rw [alive] at dead
        contradiction
      · rw [words]
        exact farewells l b
  | other _ _ _ lasting =>
      rw [command.lasting_ends lasting] at ended
      contradiction

structure Parted (s next : Scene) (command : Command) (outcome : Outcome Reply) (told : List Event) : Prop where
  -- An owned resource is released with the bytes that it had when its component was lost.
  freed : ∀ e c, s.registry.owns c = true → freed told e c = (s.lost? next e c).toList
  foreign : ∀ e c, s.registry.owns c = false → Scene.freed told e c = []
  ended : ∀ e, endings told e = (s.isAlive e && !next.isAlive e).toNat
  -- The end of an entity is told before its resources are released.
  heralded : ∀ e, s.isAlive e = true → next.isAlive e = false →
    ∃ (signature : Signature) (losses : List (ComponentId × List UInt8)),
      about told e = .destroyed e signature :: losses.map fun p => .released e p.1 p.2
  mild : (∀ reply, outcome = .ok reply → ¬ command.Parts) → ∀ event ∈ told, ¬ event.Parting

theorem parted (sound : s.Sound) (spoken : Says s command outcome told)
    (performed : s.perform command = .ok (outcome, next)) : Parted s next command outcome told := by
  obtain ⟨world, slots, steps, becomes⟩ := performed_step sound performed
  have life (e : Entity) : (command.ends e outcome && s.isAlive e) = (s.isAlive e && !next.isAlive e) := by
    have turn := (steps_turn steps e).1
    rw [← becomes.world, ← alive_iff_world sound, ← alive_iff_world becomes.sound] at turn
    exact turn.lost.symm
  refine ⟨fun e c owned => ?_, fun e c foreign => ?_, fun e => ?_, fun e alive dead => ?_, fun lasting => ?_⟩
  · have turn := ((steps_turn steps e).2 c (Registry.owned_known owned)).lost
    rw [← becomes.world] at turn
    rw [freed_told sound spoken, lost?, carries_world becomes.sound, bytes_of_world sound]
    simp only [owned, and_true]
    cases held : s.world.bytes? e c with
    | none => simp
    | some bytes =>
        rw [held, Option.isSome_some, Bool.true_and, Bool.and_true] at turn
        rw [← turn]
        cases (next.world.bytes? e c).isSome <;> rfl
  · rw [freed_told sound spoken, if_neg]
    rintro ⟨_, owned⟩
    rw [foreign] at owned
    contradiction
  · rw [endings_told sound spoken, life]
  · refine heralded_told sound spoken alive ?_
    have ended := life e
    rw [alive, dead, Bool.and_true] at ended
    exact ended
  · cases spoken with
    | other _ _ _ _ mild => exact mild
    | destroy => exact absurd trivial (lasting _ rfl)
    | remove => exact absurd trivial (lasting _ rfl)
    | unload => exact absurd trivial (lasting _ rfl)

end Step

end Scene

end EntityStore
