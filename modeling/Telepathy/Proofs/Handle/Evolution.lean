import Telepathy.Proofs.Handle.Balance

set_option autoImplicit false

/-!
# What becomes of tables

Whatever is done with a table, the numbers it issued keep their meaning or lose it, a coherent table
stays coherent, and a sound one sound. `Evolves` puts these together, for one table and for all of a
connection, and there is one lemma for each thing that is done with tables. As long as nothing is
reclaimed, whatever is in use stays so besides; `Sustains` adds that.
-/

namespace Telepathy

namespace HandleTable

/-- What a table may become, whatever is done with it. -/
structure Evolves (t t' : HandleTable) : Prop where
  succeeds : t.Succeeds t'
  coherent : t.Coherent → t'.Coherent
  sound : t.Sound → t'.Sound

variable {t t' t₁ : HandleTable}

namespace Evolves

theorem refl (t : HandleTable) : t.Evolves t := ⟨.refl t, id, id⟩

theorem trans (h : t.Evolves t') (h' : t'.Evolves t₁) : t.Evolves t₁ :=
  ⟨h.succeeds.trans h'.succeeds, h'.coherent ∘ h.coherent, h'.sound ∘ h.sound⟩

end Evolves

theorem evolves_retain (t : HandleTable) (h : Handle) : t.Evolves (t.retain h) :=
  ⟨t.succeeds_retain h, fun hcoherent => hcoherent.retain h, fun hsound => hsound.retain h⟩

theorem evolves_release (t : HandleTable) (h : Handle) : t.Evolves (t.release h) :=
  ⟨t.succeeds_release h, fun hcoherent => hcoherent.release h, fun hsound => hsound.release h⟩

theorem evolves_exchange (t : HandleTable) (retained released : List Handle) :
    t.Evolves (t.exchange retained released) :=
  (List.foldl_rel_of_step .refl .trans evolves_retain retained t).trans
    (List.foldl_rel_of_step .refl .trans evolves_release released _)

end HandleTable

namespace HandleTables

/-- What tables may become, whatever is done with them. -/
structure Evolves (ts ts' : HandleTables) : Prop where
  succeeds : ts.Succeeds ts'
  coherent : ts.Coherent → ts'.Coherent
  sound : ts.Sound → ts'.Sound
  absent : ∀ e, ts.get? e = none → ts'.get? e = none

variable {ts ts' ts₁ : HandleTables} {e : EntityType} {id : String}

namespace Evolves

theorem refl (ts : HandleTables) : ts.Evolves ts :=
  ⟨.refl ts, fun h => h, fun h => h, fun _ h => h⟩

theorem trans (h : ts.Evolves ts') (h' : ts'.Evolves ts₁) : ts.Evolves ts₁ :=
  ⟨h.succeeds.trans h'.succeeds, fun hcoherent => h'.coherent (h.coherent hcoherent),
    fun hsound => h'.sound (h.sound hsound), fun e he => h'.absent e (h.absent e he)⟩

end Evolves

theorem absent_modify (ts : HandleTables) (e : EntityType) (f : HandleTable → HandleTable)
    (e' : EntityType) (h : ts.get? e' = none) : (ts.modify e f).get? e' = none := by
  rw [get?_modify, h]
  split <;> rfl

theorem evolves_modify {f : HandleTable → HandleTable}
    (hf : ∀ t, ts.get? e = some t → t.Evolves (f t)) : ts.Evolves (ts.modify e f) :=
  ⟨succeeds_modify fun t ht => (hf t ht).succeeds,
    fun hcoherent => hcoherent.modify fun t ht => (hf t ht).coherent (hcoherent e t ht),
    fun hsound => hsound.modify fun t ht => (hf t ht).sound (hsound e t ht),
    ts.absent_modify e f⟩

/-- Another table is put in the place of one that it came from. -/
theorem evolves_set {t t' : HandleTable} (ht : ts.get? e = some t) (h : t.Evolves t') :
    ts.Evolves (ts.set e t') :=
  evolves_modify fun t₁ ht₁ => by
    rw [ht, Option.some.injEq] at ht₁
    exact ht₁ ▸ h

theorem evolves_contact {t : HandleTable} (h : ts.contact.Evolves t) :
    ts.Evolves { ts with contact := t } :=
  evolves_set (e := .contact) rfl h

theorem evolves_retain (ts : HandleTables) (r : Reference) : ts.Evolves (ts.retain r) :=
  evolves_modify fun t _ => t.evolves_retain r.handle

theorem evolves_release (ts : HandleTables) (r : Reference) : ts.Evolves (ts.release r) :=
  evolves_modify fun t _ => t.evolves_release r.handle

theorem evolves_retainAll (ts : HandleTables) (rs : List Reference) :
    ts.Evolves (ts.retainAll rs) :=
  List.foldl_rel_of_step .refl .trans evolves_retain rs ts

theorem evolves_releaseAll (ts : HandleTables) (rs : List Reference) :
    ts.Evolves (ts.releaseAll rs) :=
  List.foldl_rel_of_step .refl .trans evolves_release rs ts

theorem evolves_exchangeContacts (ts : HandleTables) (retained released : List Handle) :
    ts.Evolves (ts.exchangeContacts retained released) :=
  evolves_contact (ts.contact.evolves_exchange retained released)

theorem Issues.evolves {r : Handle × HandleTables} (h : ts.Issues e id r) : ts.Evolves r.2 := by
  refine ⟨h.succeeds, h.coherent, h.sound, ?_⟩
  obtain ⟨t, r', -, -, rfl⟩ := h
  exact ts.absent_modify e _

theorem evolves_collect (ts : HandleTables) : ts.Evolves ts.collect.2 :=
  ⟨ts.tidied_collect.succeeds, ts.tidied_collect.coherent, ts.tidied_collect.sound, fun e he => by
    rcases ts.tidied_collect e with hsame | hsame <;> rw [hsame, he]
    rfl⟩

/-- What tables may become as long as nothing is reclaimed. -/
structure Sustains (ts ts' : HandleTables) : Prop where
  evolves : ts.Evolves ts'
  keeps : ts.Keeps ts'

namespace Sustains

theorem refl (ts : HandleTables) : ts.Sustains ts := ⟨.refl ts, .refl ts⟩

theorem trans (h : ts.Sustains ts') (h' : ts'.Sustains ts₁) : ts.Sustains ts₁ :=
  ⟨h.evolves.trans h'.evolves, h.keeps.trans h'.keeps⟩

end Sustains

theorem sustains_retain (ts : HandleTables) (r : Reference) : ts.Sustains (ts.retain r) :=
  ⟨ts.evolves_retain r, ts.keeps_retain r⟩

theorem sustains_release (ts : HandleTables) (r : Reference) : ts.Sustains (ts.release r) :=
  ⟨ts.evolves_release r, ts.keeps_release r⟩

theorem sustains_retainAll (ts : HandleTables) (rs : List Reference) :
    ts.Sustains (ts.retainAll rs) :=
  ⟨ts.evolves_retainAll rs, ts.keeps_retainAll rs⟩

theorem sustains_releaseAll (ts : HandleTables) (rs : List Reference) :
    ts.Sustains (ts.releaseAll rs) :=
  ⟨ts.evolves_releaseAll rs, ts.keeps_releaseAll rs⟩

theorem sustains_keep (ts : HandleTables) (kept : KeptReferences) (name : String) (r : Reference) :
    ts.Sustains (ts.keep kept name r).1 :=
  (ts.sustains_retain r).trans (sustains_releaseAll _ _)

theorem sustains_drop (ts : HandleTables) (kept : KeptReferences) (name : String) :
    ts.Sustains (ts.drop kept name).1 :=
  ts.sustains_releaseAll _

theorem sustains_exchangeContacts (ts : HandleTables) (retained released : List Handle) :
    ts.Sustains (ts.exchangeContacts retained released) :=
  ⟨ts.evolves_exchangeContacts _ _, ts.keeps_exchangeContacts _ _⟩

theorem Issues.sustains {r : Handle × HandleTables} (h : ts.Issues e id r) : ts.Sustains r.2 :=
  ⟨h.evolves, h.keeps⟩

end HandleTables

end Telepathy
