import EntityStore.Fault

set_option autoImplicit false

namespace EntityStore.Checked

variable {α β : Type}

@[simp] theorem ok_bind (a : α) (next : α → Checked β) : (Except.ok a >>= next) = next a := rfl

@[simp] theorem error_bind (fault : Fault) (next : α → Checked β) :
    ((Except.error fault : Checked α) >>= next) = .error fault := rfl

@[simp] theorem pure_eq_ok (a : α) : (pure a : Checked α) = .ok a := rfl

@[simp] theorem ok_map (a : α) (f : α → β) : (Except.ok a : Checked α).map f = .ok (f a) := rfl

@[simp] theorem error_map (fault : Fault) (f : α → β) :
    (Except.error fault : Checked α).map f = .error fault := rfl

theorem bind_ok_iff {r : Checked α} {next : α → Checked β} {b : β} :
    (r >>= next) = .ok b ↔ ∃ a, r = .ok a ∧ next a = .ok b := by
  cases r <;> simp

theorem map_ok_iff {r : Checked α} {f : α → β} {b : β} : r.map f = .ok b ↔ ∃ a, r = .ok a ∧ f a = b := by
  cases r <;> simp

theorem require_ok (condition : Bool) (fault : Fault) (holds : condition = true) :
    require condition fault = .ok () := by
  simp [require, holds]

theorem item_ok {entries : List α} {position : Nat} {entry : α} (found : entries[position]? = some entry) :
    item entries position = .ok entry := by
  rw [item, found]

theorem part_ok {entries : List α} {position : Nat} (bound : position ≤ entries.length) :
    part entries position = .ok (entries.take position, entries.drop position) := if_pos bound

theorem sub_ok (a b : Nat) (bound : b ≤ a) : sub a b = .ok (a - b) := by
  simp [sub, bound]

theorem add_ok (a b : Nat) (bound : a + b < sizeLimit) : add a b = .ok (a + b) := by
  simp [add, bound]

theorem mul_ok (a b : Nat) (bound : a * b < sizeLimit) : mul a b = .ok (a * b) := by
  simp [mul, bound]

theorem mapM_ok (f : α → Checked β) (g : α → β) (items : List α)
    (works : ∀ a ∈ items, f a = .ok (g a)) : items.mapM f = .ok (items.map g) := by
  induction items with
  | nil => rfl
  | cons head tail ih =>
      have here : f head = .ok (g head) := works head List.mem_cons_self
      have rest := ih fun a member => works a (List.mem_cons_of_mem head member)
      rw [List.mapM_cons, here, rest]
      rfl

theorem bind_related {γ : Type} (r : Checked α) (f : α → Checked β) (g : α → Checked γ) (h : γ → β)
    (same : ∀ a, f a = (g a).map h) : (r >>= f) = (r >>= g).map h := by
  cases r with
  | error fault => rfl
  | ok a => exact same a

theorem map_bind_related {γ δ : Type} (r : Checked δ) (p : δ → α) (f : α → Checked β)
    (g : δ → Checked γ) (h : γ → β) (same : ∀ d, f (p d) = (g d).map h) :
    (r.map p >>= f) = (r >>= g).map h := by
  cases r with
  | error fault => rfl
  | ok d => exact same d

def Ensures (stops : Fault → Prop) (r : Checked α) (post : α → Prop) : Prop :=
  match r with
  | .ok a => post a
  | .error fault => stops fault

variable {stops : Fault → Prop} {r : Checked α} {post : α → Prop}

theorem ensures_bind {target : β → Prop} (next : α → Checked β) (first : Ensures stops r post)
    (rest : ∀ a, post a → Ensures stops (next a) target) : Ensures stops (r >>= next) target := by
  cases r with
  | ok a => exact rest a first
  | error fault => exact first

theorem ensures_map {target : β → Prop} (f : α → β) (first : Ensures stops r post)
    (rest : ∀ a, post a → target (f a)) : Ensures stops (r.map f) target := by
  cases r with
  | ok a => exact rest a first
  | error fault => exact first

theorem ensures_mono {weaker : α → Prop} {more : Fault → Prop} (first : Ensures stops r post)
    (faults : ∀ fault, stops fault → more fault) (values : ∀ a, post a → weaker a) :
    Ensures more r weaker := by
  cases r with
  | ok a => exact values a first
  | error fault => exact faults fault first

theorem ensures_of_eq {a : α} (done : r = .ok a) (holds : post a) : Ensures stops r post := by
  rw [done]
  exact holds

theorem ensures_any (r : Checked α) : Ensures (fun _ => True) r fun _ => True := by
  cases r <;> trivial

theorem next64_ok (n : UInt64) :
    Ensures (fun fault => fault = .sumOverflow ∧ n + 1 = 0) (next64 n) fun next => next = n + 1 := by
  rw [next64]
  by_cases last : n + 1 = 0
  · rw [if_pos last]
    exact ⟨rfl, last⟩
  · rw [if_neg last]
    exact rfl

section Alongside

variable {γ δ : Type} {R : α → γ → Prop} {S : β → δ → Prop}

inductive Alongside (R : α → γ → Prop) : Checked α → Checked γ → Prop where
  | ok {a : α} {c : γ} (related : R a c) : Alongside R (.ok a) (.ok c)
  | error (fault : Fault) : Alongside R (.error fault) (.error fault)

theorem alongside_bind {x : Checked α} {y : Checked γ} {f : α → Checked β} {g : γ → Checked δ}
    (first : Alongside R x y) (rest : ∀ a c, R a c → Alongside S (f a) (g c)) :
    Alongside S (x >>= f) (y >>= g) := by
  cases first with
  | ok related => exact rest _ _ related
  | error fault => exact .error fault

theorem alongside_map {x : Checked α} {y : Checked γ} {f : α → β} {g : γ → δ} (first : Alongside R x y)
    (rest : ∀ a c, R a c → S (f a) (g c)) : Alongside S (x.map f) (y.map g) := by
  cases first with
  | ok related => exact .ok (rest _ _ related)
  | error fault => exact .error fault

theorem alongside_bind_same (x : Checked α) {f : α → Checked β} {g : α → Checked δ}
    (rest : ∀ a, Alongside S (f a) (g a)) : Alongside S (x >>= f) (x >>= g) := by
  cases x with
  | ok a => exact rest a
  | error fault => exact .error fault

end Alongside

end EntityStore.Checked
