import Telepathy.Proofs.Lists

set_option autoImplicit false

/-!
# Computations that may fail

How a chain of computations in `Except` comes to its end: what each link gave if the whole
succeeded, and which link broke if it did not. Everything that may fault here is such a chain, so
these few facts open all of them. In `EStateM` a chain that breaks leaves the state it had reached.
-/

variable {ε α β : Type}

namespace Except

theorem bind_eq_ok {x : Except ε α} {f : α → Except ε β} {b : β} :
    x >>= f = .ok b ↔ ∃ a, x = .ok a ∧ f a = .ok b := by
  cases x with
  | error e => simp [bind, Except.bind]
  | ok a => simp [bind, Except.bind]

theorem bind_eq_error {x : Except ε α} {f : α → Except ε β} {e : ε} :
    x >>= f = .error e ↔ x = .error e ∨ ∃ a, x = .ok a ∧ f a = .error e := by
  cases x with
  | error e => simp [bind, Except.bind]
  | ok a => simp [bind, Except.bind]

theorem map_eq_ok {x : Except ε α} {f : α → β} {b : β} :
    x.map f = .ok b ↔ ∃ a, x = .ok a ∧ f a = b := by
  cases x with
  | error e => simp [Except.map]
  | ok a => simp [Except.map]

theorem mapError_eq_ok {ε' : Type} {x : Except ε α} {f : ε → ε'} {a : α} :
    x.mapError f = .ok a ↔ x = .ok a := by
  cases x with
  | error e => constructor <;> intro h <;> cases h
  | ok b =>
    constructor
    all_goals
      intro h
      cases h
      rfl

theorem isOk_mapError {ε' : Type} (x : Except ε α) (f : ε → ε') :
    (x.mapError f).isOk = x.isOk := by
  cases x <;> rfl

/-- A test that the outcome of a computation passes says that it succeeds. -/
theorem eq_ok_of_any {x : Except ε α} {p : α → Bool} (h : x.toOption.any p = true) :
    ∃ a, x = .ok a ∧ p a = true := by
  cases x with
  | error e => cases h
  | ok a => exact ⟨a, rfl, h⟩

/-- A computation that ends well with what satisfies `P`, or fails with what satisfies `E`. -/
def Ends (E : ε → Prop) (P : α → Prop) : Except ε α → Prop
  | .ok a => P a
  | .error e => E e

namespace Ends

variable {E : ε → Prop} {P : α → Prop} {Q : β → Prop} {x : Except ε α}

theorem of_ok (h : x.Ends E P) {a : α} (ha : x = .ok a) : P a := by
  rw [ha] at h
  exact h

theorem bind_of_ok {f : α → Except ε β} (h : x.Ends E P)
    (hf : ∀ a, x = .ok a → P a → (f a).Ends E Q) : (x >>= f).Ends E Q := by
  cases x with
  | ok a => exact hf a rfl h
  | error e => exact h

theorem bind {f : α → Except ε β} (h : x.Ends E P) (hf : ∀ a, P a → (f a).Ends E Q) :
    (x >>= f).Ends E Q :=
  h.bind_of_ok fun a _ ha => hf a ha

theorem map {f : α → β} (h : x.Ends E P) (hf : ∀ a, P a → Q (f a)) : (x.map f).Ends E Q := by
  cases x with
  | ok a => exact hf a h
  | error e => exact h

theorem foldlM {f : β → α → Except ε β} (hf : ∀ b a, Q b → (f b a).Ends E Q) (l : List α) {b : β}
    (h : Q b) : (l.foldlM f b).Ends E Q := by
  induction l generalizing b with
  | nil => exact h
  | cons a l ih =>
    rw [List.foldlM_cons]
    exact (hf b a h).bind fun b hb => ih hb

end Ends

end Except

namespace EStateM

variable {σ : Type} {x : EStateM ε σ α} {f : α → EStateM ε σ β} {s s' : σ}

theorem bind_of_ok {a : α} (h : x s = .ok a s') : (x >>= f) s = f a s' := by
  simp only [Bind.bind, EStateM.bind, h]

theorem bind_of_error {e : ε} (h : x s = .error e s') : (x >>= f) s = .error e s' := by
  simp only [Bind.bind, EStateM.bind, h]

end EStateM

namespace List

/-- A preorder that holds across every step of a fold that may fail holds across the whole fold. -/
theorem foldlM_rel {R : β → β → Prop} (refl : ∀ b, R b b)
    (trans : ∀ {a b c}, R a b → R b c → R a c) {f : β → α → Except ε β}
    (step : ∀ {b a b'}, f b a = .ok b' → R b b') :
    ∀ {l : List α} {b b' : β}, l.foldlM f b = .ok b' → R b b' := by
  intro l
  induction l with
  | nil =>
    intro b b' h
    cases h
    exact refl b
  | cons a l ih =>
    intro b b' h
    obtain ⟨b₁, hstep, hrest⟩ := Except.bind_eq_ok.mp (by rwa [List.foldlM_cons] at h)
    exact trans (step hstep) (ih hrest)

end List
