import Telepathy.ContactList.Basic
import Telepathy.Proofs.Handle.Evolution

set_option autoImplicit false

/-!
# Paths tell channels apart

The path of a contact list's channel is made of the handle of its target. Different handles make
different paths, and a table never gives the same handle to different identifiers, neither at the
same time nor one after the other. So if the tables of lists and groups take identifiers as they
are, channels of different targets have different paths.
-/

namespace Telepathy

/-! ## Paths -/

theorem Handle.text_injective {h h' : Handle} (heq : h.text = h'.text) : h = h' := by
  have hdigits : Nat.toDigits 10 h.number = Nat.toDigits 10 h'.number := by
    rw [← Nat.toList_repr, ← Nat.toList_repr]
    exact congrArg String.toList heq
  refine Handle.ext ?_
  rw [← Nat.ofDigitChars_ten_toDigits (n := h.number), hdigits, Nat.ofDigitChars_ten_toDigits]

theorem ObjectPath.child_injective {p : ObjectPath} {segment segment' : String}
    (h : p.child segment = p.child segment') : segment = segment' :=
  (String.append_right_inj _).mp (congrArg ObjectPath.text h)

/-- From its path one can tell the entity type of a channel's target, and the handle. -/
theorem ContactList.pathOf_injective {l : ContactList} {t t' : ContactTarget} {h h' : Handle}
    (heq : l.pathOf t h = l.pathOf t' h') : t.entity = t'.entity ∧ h = h' := by
  have happly : ∀ {a b : String}, a = b → a.toList = b.toList := congrArg String.toList
  cases t <;> cases t'
  · exact ⟨rfl, Handle.text_injective
      ((String.append_right_inj _).mp (ObjectPath.child_injective heq))⟩
  · have hfirst := happly (ObjectPath.child_injective heq)
    simp at hfirst
  · have hfirst := happly (ObjectPath.child_injective heq)
    simp at hfirst
  · exact ⟨rfl, Handle.text_injective
      ((String.append_right_inj _).mp (ObjectPath.child_injective heq))⟩

theorem ListKind.name_injective {k k' : ListKind} (h : k.name = k'.name) : k = k' := by
  revert h
  cases k <;> cases k' <;> decide

/-- Targets are known by the entity types and identifiers of their handles. -/
theorem ContactTarget.ext {t t' : ContactTarget} (hentity : t.entity = t'.entity)
    (hname : t.name = t'.name) : t = t' := by
  cases t <;> cases t'
  · exact congrArg _ (ListKind.name_injective hname)
  · cases hentity
  · cases hentity
  · exact congrArg _ hname

/-! ## Handles -/

namespace HandleTables

variable {ts ts' : HandleTables} {e : EntityType} {id : String}

/-- The tables for the targets of contact lists take identifiers as they are. -/
structure Faithful (ts : HandleTables) : Prop where
  coherent : ts.Coherent
  verbatim : ∀ (target : ContactTarget) t, ts.get? target.entity = some t →
    t.normalise = HandleTable.verbatim

theorem Faithful.evolves (h : ts.Faithful) (hts : ts.Evolves ts') : ts'.Faithful where
  coherent := hts.coherent h.coherent
  verbatim target t' ht' := by
    cases ht : ts.get? target.entity with
    | none =>
      rw [hts.absent _ ht] at ht'
      cases ht'
    | some t =>
      obtain ⟨t₁, ht₁, hsucceeds⟩ := hts.succeeds _ t ht
      cases ht'.symm.trans ht₁
      exact hsucceeds.normalise.trans (h.verbatim target t ht)

/-- A handle was issued to an identifier: it names this or, by now, nothing. -/
def Means (ts : HandleTables) (r : Reference) (id : String) : Prop :=
  ∃ t, ts.get? r.entity = some t ∧ r.handle.number < t.next.number ∧
    ∀ id', t.inspect r.handle = some id' → id' = id

theorem Means.evolves {r : Reference} (h : ts.Means r id) (hts : ts.Evolves ts') :
    ts'.Means r id := by
  obtain ⟨t, ht, hissued, hnames⟩ := h
  obtain ⟨t', ht', hsucceeds⟩ := hts.succeeds _ t ht
  exact ⟨t', ht', Nat.lt_of_lt_of_le hissued hsucceeds.next,
    fun id' hid' => hnames id' (hsucceeds.inspect hissued hid')⟩

/-- A handle that names an identifier means it. -/
theorem Coherent.means (h : ts.Coherent) {r : Reference} (hid : ts.inspect r = some id) :
    ts.Means r id := by
  obtain ⟨t, ht, hid⟩ := inspect_eq_some.mp hid
  refine ⟨t, ht, (h _ t ht).issued hid, fun id' hid' => ?_⟩
  exact Option.some.inj (hid'.symm.trans hid)

/-- A handle that names one identifier was issued to no other. -/
theorem Means.of_inspect {r : Reference} {id' : String} (h : ts.Means r id)
    (hid : ts.inspect r = some id') : id' = id := by
  obtain ⟨t, ht, -, hnames⟩ := h
  obtain ⟨t', ht', hid⟩ := inspect_eq_some.mp hid
  cases ht.symm.trans ht'
  exact hnames id' hid

/-- The handle that is given for a target names it. -/
theorem Faithful.inspect_ensure (h : ts.Faithful) {target : ContactTarget}
    {x : Handle × HandleTables} (hensure : ts.ensure target.entity target.name = .ok x) :
    x.2.inspect ⟨target.entity, x.1⟩ = some target.name := by
  obtain ⟨t, canonical, ht, hcanonical, hid⟩ :=
    (issues_of_ensure hensure).inspect h.coherent.sound
  rw [h.verbatim target t ht, HandleTable.verbatim] at hcanonical
  split at hcanonical
  · cases hcanonical
  · cases hcanonical
    exact hid

end HandleTables

end Telepathy
