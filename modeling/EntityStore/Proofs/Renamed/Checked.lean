import EntityStore.Entity
import EntityStore.Proofs.Checked
import EntityStore.StoreError

set_option autoImplicit false

namespace EntityStore

variable {ρ : Entity → Entity}

inductive Fault.Renamed (ρ : Entity → Entity) : Fault → Fault → Prop where
  | same (fault : Fault) : Fault.Renamed ρ fault fault
  | relocated (e : Entity) : Fault.Renamed ρ (.deadHandleRelocated e) (.deadHandleRelocated (ρ e))

namespace StoreError

def renamed (ρ : Entity → Entity) : StoreError → StoreError
  | .staleEntity e => .staleEntity (ρ e)
  | .missingComponent e id => .missingComponent (ρ e) id
  | .componentAlreadyPresent e id => .componentAlreadyPresent (ρ e) id
  | .hierarchyCycle e => .hierarchyCycle (ρ e)
  | .hierarchyMissingTransform e => .hierarchyMissingTransform (ρ e)
  | .hierarchyParentNotAlive child parent => .hierarchyParentNotAlive (ρ child) (ρ parent)
  | error => error

end StoreError

namespace Outcome

variable {α β : Type}

def renamed (ρ : Entity → Entity) (f : α → α) (outcome : Outcome α) : Outcome α :=
  (outcome.map f).mapError (StoreError.renamed ρ)

@[simp] theorem renamed_ok (f : α → α) (a : α) : renamed ρ f (.ok a) = .ok (f a) := rfl

@[simp] theorem renamed_error (f : α → α) (error : StoreError) :
    renamed ρ f (.error error) = .error (error.renamed ρ) := rfl

theorem renamed_map (f : α → α) (g : β → β) (h : α → β) (same : ∀ a, h (f a) = g (h a)) (outcome : Outcome α) :
    (renamed ρ f outcome).map h = renamed ρ g (outcome.map h) := by
  cases outcome with
  | error error => rfl
  | ok a => exact congrArg Except.ok (same a)

end Outcome

namespace Checked

variable {α β γ δ : Type} {R : α → β → Prop} {S : γ → δ → Prop}

inductive Both (ρ : Entity → Entity) (R : α → β → Prop) : Checked α → Checked β → Prop where
  | ok {a : α} {b : β} (related : R a b) : Both ρ R (.ok a) (.ok b)
  | error {fault other : Fault} (renamed : Fault.Renamed ρ fault other) :
      Both ρ R (.error fault) (.error other)

theorem both_bind {x : Checked α} {y : Checked β} {f : α → Checked γ} {g : β → Checked δ}
    (first : Both ρ R x y) (rest : ∀ a b, R a b → Both ρ S (f a) (g b)) :
    Both ρ S (x >>= f) (y >>= g) := by
  cases first with
  | ok related => exact rest _ _ related
  | error renamed => exact .error renamed

theorem both_map {x : Checked α} {y : Checked β} {f : α → γ} {g : β → δ} (first : Both ρ R x y)
    (rest : ∀ a b, R a b → S (f a) (g b)) : Both ρ S (x.map f) (y.map g) := by
  cases first with
  | ok related => exact .ok (rest _ _ related)
  | error renamed => exact .error renamed

theorem of_require {condition : Bool} {fault : Fault} {done : Unit}
    (passed : require condition fault = .ok done) :
    condition = true := by
  cases condition with
  | true => rfl
  | false => contradiction

theorem require_bind_iff (condition : Bool) (fault : Fault) (next : Checked α) (a : α) :
    (require condition fault >>= fun _ => next) = .ok a ↔ condition = true ∧ next = .ok a := by
  cases condition <;> simp [require]

theorem mapM_congr {f g : α → Checked γ} (items : List α) (same : ∀ a ∈ items, f a = g a) :
    items.mapM f = items.mapM g := by
  induction items with
  | nil => rfl
  | cons head tail ih =>
      rw [List.mapM_cons, List.mapM_cons, same head List.mem_cons_self,
        ih fun a member => same a (List.mem_cons_of_mem head member)]

theorem both_bind_same (x : Checked α) {f : α → Checked γ} {g : α → Checked δ}
    (rest : ∀ a, x = .ok a → Both ρ S (f a) (g a)) : Both ρ S (x >>= f) (x >>= g) := by
  cases x with
  | ok a => exact rest a rfl
  | error fault => exact .error (.same fault)

theorem both_bind_ite {condition : Bool} {x z : Checked α} {y w : Checked β} {f : α → Checked γ}
    {g : β → Checked δ}
    (first : Both ρ R (if condition then x else z) (if condition then y else w))
    (rest : ∀ a b, R a b → Both ρ S (f a) (g b)) :
    Both ρ S (if condition then x >>= f else z >>= f) (if condition then y >>= g else w >>= g) := by
  cases condition with
  | true => exact both_bind first rest
  | false => exact both_bind first rest

end Checked

end EntityStore
