import Telepathy.Connection.Registration
import Telepathy.Proofs.Connection.Names

set_option autoImplicit false

/-!
# Registering is all or nothing

Registering asks for two things, one after the other: first the name, then the path. It ends in one
of four ways, and `Registers` says for each when it comes about and what it leaves behind. Only in
one of them is there something to take back, the name claimed just before; because the name had no
owner then, taking it back leaves the owned names as they were.
-/

namespace Telepathy

theorem Bus.releaseName_insert {b : Bus} {name : BusName} (h : name ∉ b.names) :
    { b with names := b.names.insert name }.releaseName name = b := by
  rw [Bus.releaseName, SortedSet.erase_insert_of_notMem h]

/-! ## Names of managers -/

namespace Config

/-- Whether a text can name a manager: an ASCII letter, then ASCII letters, digits and underscores.
-/
def IsManagerName (name : String) : Prop :=
  ∃ first rest, name.toList = first :: rest ∧ first.isAlpha = true ∧
    ∀ c ∈ rest, c.isAlphanum = true ∨ c = '_'

theorem isNameChar_iff {c : Char} : isNameChar c = true ↔ c.isAlphanum = true ∨ c = '_' := by
  simp [isNameChar]

theorem managerNameFlaw?_eq_none_iff {name : String} :
    managerNameFlaw? name.toList = none ↔ IsManagerName name := by
  constructor
  · intro h
    obtain ⟨first, rest, hname, halpha, hrest⟩ := managerNameFlaw?_eq_none h
    exact ⟨first, rest, hname, halpha, fun c hc => isNameChar_iff.mp (hrest c hc)⟩
  · rintro ⟨first, rest, hname, halpha, hrest⟩
    have hplain : rest.all isNameChar = true :=
      List.all_eq_true.mpr fun c hc => isNameChar_iff.mpr (hrest c hc)
    rw [hname, managerNameFlaw?, halpha, hplain]
    rfl

/-- A configuration passes its check exactly if it has a proper name for the manager; the check
blames nothing but the argument. -/
theorem validate_cases (config : Config) :
    (IsManagerName config.connectionManager ∧ config.validate = .ok ()) ∨
      (¬ IsManagerName config.connectionManager ∧
        ∃ e, config.validate = .error e ∧ e.kind = .invalidArgument) := by
  unfold validate
  cases hflaw : managerNameFlaw? config.connectionManager.toList with
  | none => exact .inl ⟨managerNameFlaw?_eq_none_iff.mp hflaw, rfl⟩
  | some flaw =>
    refine .inr ⟨fun hname => ?_, _, rfl, rfl⟩
    rw [managerNameFlaw?_eq_none_iff.mpr hname] at hflaw
    cases hflaw

end Config

namespace Connection

variable {σ ρ : Type} {c : Connection σ ρ}

/-! ## The ways in which registering ends -/

/-- How registering a connection may end. -/
inductive Registers (c : Connection σ ρ) : Except Error Unit × Connection σ ρ → Prop
  /-- No connection of this manager can have a name on the bus. -/
  | misnamed (e : Error) (hname : ¬ Config.IsManagerName c.config.connectionManager)
      (hkind : e.kind = .invalidArgument) : Registers c (.error e, c)
  | nameTaken (hname : Config.IsManagerName c.config.connectionManager)
      (howned : c.names.busName ∈ c.bus.names) :
      Registers c (.error (BusRefusal.nameTaken c.names.busName).toError,
        c.record [.nameClaimed c.names.busName false])
  /-- The name was free, so that it was claimed and given back. -/
  | pathTaken (hname : Config.IsManagerName c.config.connectionManager)
      (hfree : c.names.busName ∉ c.bus.names)
      (hexported : c.bus.isExported c.names.path = true) :
      Registers c (.error (BusRefusal.pathTaken c.names.path).toError,
        c.record [.nameClaimed c.names.busName true,
          .objectExported c.names.path c.interfaces false, .nameReleased c.names.busName])
  | done (hname : Config.IsManagerName c.config.connectionManager)
      (hfree : c.names.busName ∉ c.bus.names)
      (hunexported : c.bus.isExported c.names.path = false) :
      Registers c (.ok (),
        { c with
          registered := true
          bus :=
            { c.bus with
              names := c.bus.names.insert c.names.busName
              objects := c.bus.objects.insert c.names.path c.interfaces }
        }.record [.nameClaimed c.names.busName true,
          .objectExported c.names.path c.interfaces true])

theorem registers (c : Connection σ ρ) : Registers c c.register := by
  unfold register
  obtain ⟨hname, hvalid⟩ | ⟨hname, e, hvalid, hkind⟩ := c.config.validate_cases <;> rw [hvalid]
  case inr => exact .misnamed e hname hkind
  by_cases howned : c.names.busName ∈ c.bus.names
  · simp only [Bus.claimName, if_pos howned]
    exact .nameTaken hname howned
  · simp only [Bus.claimName, if_neg howned, Bus.exportObject]
    cases hexported : c.bus.isExported c.names.path with
    | true =>
      have h : Bus.isExported { c.bus with names := c.bus.names.insert c.names.busName }
          c.names.path = true := hexported
      simp only [record, h, Bus.releaseName_insert howned, List.append_assoc]
      exact .pathTaken hname howned hexported
    | false =>
      have h : Bus.isExported { c.bus with names := c.bus.names.insert c.names.busName }
          c.names.path = false := hexported
      simp only [record, h, List.append_assoc]
      exact .done hname howned hexported

/-! ## Both or neither -/

/-- From `c` to `c'` the connection came to own its name and to export its object, and apart from
the list of events nothing else changed, on the bus or in the connection. -/
structure TakesPlace (c c' : Connection σ ρ) : Prop where
  names : ∀ name, name ∈ c'.bus.names ↔ name = c.names.busName ∨ name ∈ c.bus.names
  objects : ∀ path, c'.bus.objects.get? path =
    if path = c.names.path then some (coreInterfaces ++ c.backend.interfaces)
    else c.bus.objects.get? path
  watched : c'.bus.watched = c.bus.watched
  rest : c' = { c with bus := c'.bus, registered := true, log := c'.log }

/-- From `c` to `c'` nothing changed, on the bus or in the connection; there are only more
events. -/
def Untouched (c c' : Connection σ ρ) : Prop := ∃ events, c' = c.record events

/-- Registering gives a connection its name and its path, or it fails and leaves everything as it
was. It succeeds exactly if the manager's name is proper and neither is taken; it blames the
argument for an improper name and the bus for anything taken. -/
theorem register_both_or_neither (c : Connection σ ρ) :
    let proper := Config.IsManagerName c.config.connectionManager
    let taken := c.names.busName ∈ c.bus.names ∨ c.bus.isExported c.names.path = true
    (c.register.1 = .ok () ↔ proper ∧ ¬ taken) ∧
      (c.register.1 = .ok () → c.TakesPlace c.register.2) ∧
      ∀ e, c.register.1 = .error e →
        (e.kind = .invalidArgument ↔ ¬ proper) ∧
        (e.kind = .notAvailable ↔ proper ∧ taken) ∧
        c.Untouched c.register.2 := by
  intro proper taken
  have h := registers c
  generalize c.register = out at h
  cases h with
  | misnamed e hname hkind =>
    refine ⟨by simp [proper, hname], nofun, ?_⟩
    rintro _ ⟨⟩
    exact ⟨by simp [proper, hname, hkind], by simp [proper, hname, hkind], [], by simp [record]⟩
  | nameTaken hname howned =>
    refine ⟨by simp [taken, howned], nofun, ?_⟩
    rintro _ ⟨⟩
    exact ⟨by simp [proper, hname, BusRefusal.toError],
      by simp [proper, taken, hname, howned, BusRefusal.toError], _, rfl⟩
  | pathTaken hname hfree hexported =>
    refine ⟨by simp [taken, hexported], nofun, ?_⟩
    rintro _ ⟨⟩
    exact ⟨by simp [proper, hname, BusRefusal.toError],
      by simp [proper, taken, hname, hexported, BusRefusal.toError], _, rfl⟩
  | done hname hfree hunexported =>
    refine ⟨by simp [proper, taken, hname, hfree, hunexported], fun _ => ?_, nofun⟩
    exact
      { names := fun name => SortedSet.mem_insert
        objects := fun path => SortedMap.get?_insert ..
        watched := rfl
        rest := rfl }

end Connection

end Telepathy
