import Telepathy.Handle.Contact
import Telepathy.Proofs.Handle.Evolution

set_option autoImplicit false

/-!
# What naming does to tables

Whoever names something by its identifier may have a handle issued, and nothing else happens to the
tables: they count what they counted, and whatever was in use stays so. A name that resolves gives a
handle that is in use by then.
-/

namespace Telepathy.HandleTables

/-- What becomes of tables that issue handles and do nothing else. -/
structure Interns (ts ts' : HandleTables) : Prop extends ts.Sustains ts' where
  references : ts.Sound → ∀ r, ts'.referencesTo r = ts.referencesTo r

variable {ts ts' ts₁ : HandleTables} {e : EntityType} {t t' : HandleTable}

namespace Interns

theorem refl (ts : HandleTables) : ts.Interns ts := ⟨.refl ts, fun _ _ => rfl⟩

theorem sound (h : ts.Interns ts') : ts.Sound → ts'.Sound := h.evolves.sound

theorem trans (h : ts.Interns ts') (h' : ts'.Interns ts₁) : ts.Interns ts₁ where
  toSustains := h.toSustains.trans h'.toSustains
  references hsound r := (h'.references (h.sound hsound) r).trans (h.references hsound r)

theorem counts (h : ts.Interns ts') {held : List Reference} (hcounts : ts.Counts held) :
    ts'.Counts held :=
  ⟨h.sound hcounts.sound, fun r => (h.references hcounts.sound r).trans (hcounts.balanced r)⟩

end Interns

theorem Issues.interns {id : String} {x : Handle × HandleTables} (h : ts.Issues e id x) :
    ts.Interns x.2 :=
  ⟨h.sustains, h.referencesTo⟩

/-! ## A table of its own -/

theorem set_self (ht : ts.get? e = some t) : ts.set e t = ts := by
  cases ts
  cases e <;> cases ht <;> rfl

theorem set_set (ts : HandleTables) (e : EntityType) (t t' : HandleTable) :
    (ts.set e t).set e t' = ts.set e t' := by
  cases e <;> simp [set, modify, Function.comp_def]

theorem get?_set (ht : ts.get? e = some t) (t' : HandleTable) : (ts.set e t').get? e = some t' := by
  rw [set, get?_modify, if_pos rfl, ht]
  rfl

/-- A handle that is held is in use. -/
theorem isValid_of_hold {h h' : Handle} (hhold : ts.hold e h = .ok h') :
    ts.isValid ⟨e, h'⟩ = true := by
  obtain ⟨t, ht, hhold⟩ := Except.bind_eq_ok.mp hhold
  unfold HandleTable.hold at hhold
  split at hhold
  case isTrue hin =>
    cases hhold
    exact isValid_iff_table.mpr ⟨t, get_eq_ok.mp ht, hin⟩
  case isFalse => cases hhold

/-! ## Names -/

theorem interns_resolve (ht : ts.get? e = some t) (name : ContactName) :
    ts.Interns (ts.set e (t.resolve name).2) := by
  cases name with
  | id id =>
    simp only [HandleTable.resolve]
    split
    case h_1 h t' hintern =>
      have hissues : ts.Issues e id (h, ts.set e t') :=
        ⟨t, (h, t'), ht, HandleTable.issues_of_intern hintern, rfl⟩
      exact hissues.interns
    case h_2 =>
      rw [set_self ht]
      exact .refl ts
  | number n =>
    have hsame : (t.resolve (.number n)).2 = t := by
      simp only [HandleTable.resolve]
      split <;> rfl
    rw [hsame, set_self ht]
    exact .refl ts

theorem isValid_of_resolve (hsound : ts.Sound) (ht : ts.get? e = some t) {name : ContactName}
    {h : Handle} (hfound : (t.resolve name).1 = .ok h) :
    (ts.set e (t.resolve name).2).isValid ⟨e, h⟩ = true := by
  cases name with
  | id id =>
    simp only [HandleTable.resolve] at hfound ⊢
    split at hfound
    case h_1 h' t' hintern =>
      cases hfound
      have hissues : ts.Issues e id (h, ts.set e t') :=
        ⟨t, (h, t'), ht, HandleTable.issues_of_intern hintern, rfl⟩
      exact hissues.isValid hsound
    case h_2 => cases hfound
  | number n =>
    simp only [HandleTable.resolve] at hfound ⊢
    split at hfound
    case h_1 => cases hfound
    case h_2 h' hn =>
      simp only [Except.mapError_eq_ok, HandleTable.hold] at hfound
      split at hfound
      case isTrue hin =>
        cases hfound
        rw [set_self ht]
        exact isValid_iff_table.mpr ⟨t, ht, hin⟩
      case isFalse => cases hfound

theorem interns_resolveList (ht : ts.get? e = some t) (names : List ContactName) :
    ts.Interns (ts.set e (t.resolveList names).2) := by
  induction names generalizing ts t with
  | nil =>
    rw [HandleTable.resolveList, set_self ht]
    exact .refl ts
  | cons name names ih =>
    have hfirst := interns_resolve ht name
    unfold HandleTable.resolveList
    split
    case h_1 e' t' heq =>
      rw [heq] at hfirst
      exact hfirst
    case h_2 h t' heq =>
      rw [heq] at hfirst
      have hrest := ih (get?_set ht t')
      rw [set_set] at hrest
      exact hfirst.trans hrest

/-- All names of a list that resolves give handles in use. -/
theorem isValid_of_resolveList (hsound : ts.Sound) (ht : ts.get? e = some t)
    {names : List ContactName} {found : List Handle}
    (hfound : (t.resolveList names).1 = .ok found) :
    ∀ h ∈ found, (ts.set e (t.resolveList names).2).isValid ⟨e, h⟩ = true := by
  induction names generalizing ts t found with
  | nil =>
    cases hfound
    simp
  | cons name names ih =>
    have hfirst := interns_resolve ht name
    unfold HandleTable.resolveList at hfound ⊢
    split at hfound
    case h_1 => cases hfound
    case h_2 h t' heq =>
      obtain ⟨rest, hrest, rfl⟩ := Except.map_eq_ok.mp hfound
      rw [heq] at hfirst
      have hget := get?_set ht t'
      have hkeeps := (interns_resolveList hget names).keeps
      have hlater := ih (hfirst.sound hsound) hget hrest
      rw [set_set] at hkeeps hlater
      have hthis : (ts.set e t').isValid ⟨e, h⟩ = true := by
        have hname : (t.resolve name).1 = .ok h := by rw [heq]
        have hvalid := isValid_of_resolve hsound ht hname
        rwa [heq] at hvalid
      intro h' hmem
      rcases List.mem_cons.mp hmem with rfl | hmem
      · exact hkeeps _ hthis
      · exact hlater h' hmem

/-- The same for sets of contacts. -/
theorem isValid_of_resolveSet (hsound : ts.Sound) {names : List ContactName}
    {found : SortedSet Handle} (hfound : (ts.contact.resolveSet names).1 = .ok found) :
    ∀ h ∈ found, HandleTables.isValid { ts with contact := (ts.contact.resolveSet names).2 }
      ⟨.contact, h⟩ = true := by
  obtain ⟨list, hlist, rfl⟩ := Except.map_eq_ok.mp hfound
  intro h hh
  exact isValid_of_resolveList (e := .contact) hsound rfl hlist h (SortedSet.mem_ofList.mp hh)

theorem interns_resolveSet (ts : HandleTables) (names : List ContactName) :
    ts.Interns { ts with contact := (ts.contact.resolveSet names).2 } :=
  interns_resolveList (e := .contact) rfl names

end Telepathy.HandleTables
