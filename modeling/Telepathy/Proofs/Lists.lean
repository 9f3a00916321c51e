set_option autoImplicit false

/-!
# Lists and options

What holds across every step of a fold holds across the fold, and what is gathered from a list can
be told apart by where it comes from. These facts know nothing of the program.
-/

variable {α β γ : Type}

namespace List

/-- A preorder that holds across every step of a fold holds across the whole fold. -/
theorem foldl_rel_of_step {R : β → β → Prop} (refl : ∀ b, R b b)
    (trans : ∀ {a b c}, R a b → R b c → R a c) {f : β → α → β} (step : ∀ b a, R b (f b a)) :
    ∀ (l : List α) (b : β), R b (l.foldl f b) := by
  intro l
  induction l with
  | nil => exact refl
  | cons a l ih => exact fun b => trans (step b a) (ih (f b a))

/-- What every step of a fold leaves as it is, the whole fold does. -/
theorem foldl_keeps (p : β → γ) {f : β → α → β} (step : ∀ b a, p (f b a) = p b)
    (l : List α) (b : β) : p (l.foldl f b) = p b :=
  foldl_rel_of_step (R := fun b b' => p b' = p b) (fun _ => rfl) (fun h h' => h'.trans h) step l b

/-- What is gathered from a list, up to order: what one of its elements has, and what the others
have. -/
theorem flatMap_perm_of_getElem? {l : List α} {i : Nat} {a : α}
    (h : l[i]? = some a) (f : α → List β) :
    (l.flatMap f).Perm (f a ++ (l.eraseIdx i).flatMap f) := by
  induction l generalizing i with
  | nil => cases h
  | cons b l ih =>
    cases i with
    | zero =>
      cases h
      exact .refl _
    | succ i =>
      simp only [List.flatMap_cons, List.eraseIdx_cons_succ]
      exact ((ih h).append_left (f b)).trans (List.perm_append_comm_assoc _ _ _)

end List

namespace Option

theorem count_toList [DecidableEq α] {o : Option α} {a : α} :
    o.toList.count a = if o = some a then 1 else 0 := by
  cases o with
  | none => rfl
  | some b => simp [List.count_singleton]

/-- What the last of two findings says, or else the first. -/
theorem bind_or (latest first : Option α) (f : α → Option β) :
    (latest.or first).bind f = latest.elim (first.bind f) f := by
  cases latest <;> rfl

end Option
