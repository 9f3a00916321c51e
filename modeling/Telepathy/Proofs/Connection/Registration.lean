import Telepathy.Proofs.Connection.Stages

set_option autoImplicit false

/-!
# On the bus and off it

A connection that registers owns its name and exports its object, and keeps both until its shutdown
is over, when it withdraws both. It gives back only what it was granted. What is granted, and what
is given back, is read off the list of events; nothing is asked of the connection's own flag. All of
this supposes that nobody else takes the connection's name or path.
-/

namespace Telepathy

variable {σ ρ : Type}

/-- Whether by an operation somebody else takes the connection's name or path. -/
def Operation.isRival : Operation σ ρ → Bool
  | .loseName | .losePath => true
  | _ => false

/-! ## What was granted and not given back -/

/-- Whether a name is held after one more event. -/
def Event.holdName (name : BusName) (held : Bool) : Event → Bool
  | .nameClaimed n granted => if n = name then held || granted else held
  | .nameReleased n => if n = name then false else held
  | _ => held

/-- Whether an object is held after one more event. -/
def Event.holdObject (path : ObjectPath) (held : Bool) : Event → Bool
  | .objectExported p _ granted => if p = path then held || granted else held
  | .objectWithdrawn p => if p = path then false else held
  | _ => held

/-- Whether a name was granted in the course of some events, and not given back since. -/
def holdsName (name : BusName) (events : List Event) : Bool :=
  events.foldl (Event.holdName name) false

/-- Whether an object was exported in the course of some events, and not withdrawn since. -/
def holdsObject (path : ObjectPath) (events : List Event) : Bool :=
  events.foldl (Event.holdObject path) false

theorem holdsName_concat (name : BusName) (events : List Event) (e : Event) :
    holdsName name (events ++ [e]) = e.holdName name (holdsName name events) := by
  rw [holdsName, List.foldl_append]
  rfl

theorem holdsObject_concat (path : ObjectPath) (events : List Event) (e : Event) :
    holdsObject path (events ++ [e]) = e.holdObject path (holdsObject path events) := by
  rw [holdsObject, List.foldl_append]
  rfl

/-- Everything that is given back was held until then. -/
structure GivesBackOwn (events : List Event) : Prop where
  name : ∀ before name, before ++ [.nameReleased name] <+: events → holdsName name before = true
  object : ∀ before path, before ++ [.objectWithdrawn path] <+: events →
    holdsObject path before = true

theorem GivesBackOwn.concat {events : List Event} {e : Event} (h : GivesBackOwn events)
    (hname : ∀ name, e = .nameReleased name → holdsName name events = true)
    (hobject : ∀ path, e = .objectWithdrawn path → holdsObject path events = true) :
    GivesBackOwn (events ++ [e]) where
  name before name hbefore := by
    rcases List.prefix_concat_iff.mp hbefore with hlast | hearlier
    · obtain ⟨rfl, he⟩ := List.append_inj' hlast rfl
      exact hname name (List.singleton_inj.mp he).symm
    · exact h.name before name hearlier
  object before path hbefore := by
    rcases List.prefix_concat_iff.mp hbefore with hlast | hearlier
    · obtain ⟨rfl, he⟩ := List.append_inj' hlast rfl
      exact hobject path (List.singleton_inj.mp he).symm
    · exact h.object before path hearlier

/-- An event by which no name or object is asked for or given back. -/
def Event.IsElsewhere : Event → Prop
  | .nameClaimed _ _ | .nameReleased _ | .objectExported _ _ _ | .objectWithdrawn _ => False
  | _ => True

theorem Event.IsPlain.isElsewhere {e : Event} (h : e.IsPlain) : e.IsElsewhere := by
  cases e <;> trivial

/-- Such events change nothing about what is held, and give nothing back. -/
theorem elsewhere_append {events : List Event} (h : ∀ e ∈ events, e.IsElsewhere)
    (before : List Event) :
    (∀ name, holdsName name (before ++ events) = holdsName name before) ∧
      (∀ path, holdsObject path (before ++ events) = holdsObject path before) ∧
      (GivesBackOwn before → GivesBackOwn (before ++ events)) := by
  induction events generalizing before with
  | nil =>
    rw [List.append_nil]
    exact ⟨fun _ => rfl, fun _ => rfl, id⟩
  | cons e events ih =>
    obtain ⟨hname, hobject, hown⟩ :=
      ih (fun e' he' => h e' (List.mem_cons_of_mem _ he')) (before ++ [e])
    have he := h e List.mem_cons_self
    rw [List.append_assoc, List.singleton_append] at hname hobject hown
    refine ⟨fun name => (hname name).trans ?_, fun path => (hobject path).trans ?_,
      fun hbefore => hown (hbefore.concat ?_ ?_)⟩
    · rw [holdsName_concat]
      cases e <;> first | rfl | exact he.elim
    · rw [holdsObject_concat]
      cases e <;> first | rfl | exact he.elim
    · rintro name rfl
      exact he.elim
    · rintro path rfl
      exact he.elim

namespace Connection

variable {start c c₁ c₂ : Connection σ ρ} {op : Operation σ ρ}

/-! ## Stages elsewhere -/

/-- Nothing happens to the place of the connection on the bus. -/
structure KeepsPlace (c c' : Connection σ ρ) : Prop where
  names : c'.names = c.names
  busNames : c'.bus.names = c.bus.names
  objects : c'.bus.objects = c.bus.objects
  registered : c'.registered = c.registered
  shutDown : c'.shutDown = c.shutDown
  events : ∃ events, c'.log = c.log ++ events ∧ ∀ e ∈ events, e.IsElsewhere

namespace KeepsPlace

/-- Nothing is said either. -/
theorem quiet (hnames : c₁.names = c.names) (hbus : c₁.bus = c.bus)
    (hregistered : c₁.registered = c.registered) (hshut : c₁.shutDown = c.shutDown)
    (hlog : c₁.log = c.log) : c.KeepsPlace c₁ :=
  ⟨hnames, by rw [hbus], by rw [hbus], hregistered, hshut, [], by rw [hlog, List.append_nil],
    by simp⟩

theorem refl (c : Connection σ ρ) : c.KeepsPlace c := quiet rfl rfl rfl rfl rfl

theorem trans (h : c.KeepsPlace c₁) (h' : c₁.KeepsPlace c₂) : c.KeepsPlace c₂ where
  names := h'.names.trans h.names
  busNames := h'.busNames.trans h.busNames
  objects := h'.objects.trans h.objects
  registered := h'.registered.trans h.registered
  shutDown := h'.shutDown.trans h.shutDown
  events := by
    obtain ⟨events, hlog, helsewhere⟩ := h.events
    obtain ⟨events', hlog', helsewhere'⟩ := h'.events
    refine ⟨events ++ events', by rw [hlog', hlog, List.append_assoc], fun e he => ?_⟩
    rcases List.mem_append.mp he with he | he
    · exact helsewhere e he
    · exact helsewhere' e he

theorem record (c : Connection σ ρ) {events : List Event} (h : ∀ e ∈ events, e.IsElsewhere) :
    c.KeepsPlace (c.record events) :=
  ⟨rfl, rfl, rfl, rfl, rfl, events, rfl, h⟩

end KeepsPlace

theorem keepsPlace_settle {r : Report} (h : c.settle r = .ok c₁) : c.KeepsPlace c₁ := by
  obtain ⟨s, hs, rfl⟩ := settle_cases h
  refine ⟨rfl, rfl, rfl, rfl, rfl, s.events, rfl, fun e he => ?_⟩
  rcases RequestLedger.mem_settle_events hs he with ⟨p, signal, rfl, -⟩ | ⟨call, a, rfl, -⟩
  · trivial
  · trivial

theorem keepsPlace_takeTurn {seat : Nat} {t : Turn σ ρ} (h : c.takeTurn seat t = .ok c₁) :
    c.KeepsPlace c₁ := by
  have hplaced : c.KeepsPlace
      { c with managers := c.managers.set seat t.manager, tables := t.tables } :=
    .quiet rfl rfl rfl rfl rfl
  refine hplaced.trans (List.foldlM_rel KeepsPlace.refl KeepsPlace.trans (fun {c e c'} h => ?_) h)
  cases e with
  | report r => exact keepsPlace_settle (Except.mapError_eq_ok.mp h)
  | signal path s =>
    cases h
    exact .record c (by simp [Event.IsElsewhere])
  | called call =>
    cases h
    exact .record c (by simp [Event.IsElsewhere])

/-- Only registering and the end of the shutdown concern the connection's place on the bus. -/
theorem Stage.keepsPlace (hop : op.isRival = false) (h : Stage start op c c₁) :
    c.KeepsPlace c₁ ∨ op = .register ∧ c₁ = c.register.2 ∨
      c.shutDown = false ∧ c₁ = { c with shutDown := true }.withdraw := by
  cases h with
  | turn hm ht hturn => exact .inl (keepsPlace_takeTurn hturn)
  | settle hreport hsettle => exact .inl (keepsPlace_settle hsettle)
  | register hregister => exact .inr (.inl ⟨hregister, rfl⟩)
  | loseName hlose =>
    rw [hlose] at hop
    cases hop
  | losePath hlose =>
    rw [hlose] at hop
    cases hop
  | leave hstatus hover => exact .inr (.inr ⟨hover, rfl⟩)
  | say hplain => exact .inl (.record c fun e he => (hplain e he).isElsewhere)
  | setSelf hself hstatus hvalid =>
    refine .inl ⟨rfl, rfl, rfl, rfl, rfl, _, rfl, fun e he => ?_⟩
    rw [(mem_selfNews he).2]
    trivial
  | interests interests watched =>
    exact .inl ⟨rfl, rfl, rfl, rfl, rfl, [], (List.append_nil _).symm, by simp⟩
  | _ => exact .inl (.quiet rfl rfl rfl rfl rfl)

/-! ## The connection's flag tells the truth -/

/-- The connection owns its name and exports its object exactly if its flag says so, by its own
doing, and has given back nothing else. -/
structure Truthful (c : Connection σ ρ) : Prop where
  name : c.names.busName ∈ c.bus.names ↔ c.registered = true
  object : c.bus.isExported c.names.path = c.registered
  holdsName : holdsName c.names.busName c.log = c.registered
  holdsObject : holdsObject c.names.path c.log = c.registered
  own : GivesBackOwn c.log

namespace Truthful

theorem keepsPlace (h : c.Truthful) (hc : c.KeepsPlace c₁) : c₁.Truthful := by
  obtain ⟨events, hlog, helsewhere⟩ := hc.events
  obtain ⟨hname, hobject, hown⟩ := elsewhere_append helsewhere c.log
  refine ⟨?_, ?_, ?_, ?_, hlog ▸ hown h.own⟩
  · rw [hc.names, hc.busNames, hc.registered]
    exact h.name
  · rw [hc.names, hc.registered, ← h.object, Bus.isExported, hc.objects]
    rfl
  · rw [hc.names, hc.registered, hlog, hname]
    exact h.holdsName
  · rw [hc.names, hc.registered, hlog, hobject]
    exact h.holdsObject

/-- Registering takes the name and the path, or neither, since nobody else has one of them. -/
theorem register_cases (h : c.Truthful) :
    (∃ e, c.register = (.error e, c)) ∨
      (∃ e, c.register = (.error e, c.record [.nameClaimed c.names.busName false])) ∨
      c.registered = false ∧ c.register =
        (.ok (),
          { c with
            bus := ⟨c.bus.objects.insert c.names.path c.interfaces,
              c.bus.names.insert c.names.busName, c.bus.watched⟩
            registered := true
            log := c.log ++ [.nameClaimed c.names.busName true,
              .objectExported c.names.path c.interfaces true] }) := by
  unfold Connection.register
  cases c.config.validate with
  | error e => exact .inl ⟨e, rfl⟩
  | ok u =>
    by_cases htaken : c.names.busName ∈ c.bus.names
    · have hclaim : c.bus.claimName c.names.busName = .error (.nameTaken c.names.busName) :=
        if_pos htaken
      rw [hclaim]
      exact .inr (.inl ⟨_, rfl⟩)
    · have hoff : c.registered = false := Bool.eq_false_iff.mpr fun hr => htaken (h.name.mpr hr)
      have hclaim : c.bus.claimName c.names.busName =
          .ok { c.bus with names := c.bus.names.insert c.names.busName } := if_neg htaken
      have hfree : ({ c.bus with names := c.bus.names.insert c.names.busName } : Bus).isExported
          c.names.path = false := h.object.trans hoff
      have hexport : ∀ interfaces,
          ({ c.bus with names := c.bus.names.insert c.names.busName } : Bus).exportObject
            c.names.path interfaces =
              .ok ⟨c.bus.objects.insert c.names.path interfaces,
                c.bus.names.insert c.names.busName, c.bus.watched⟩ := fun interfaces =>
        if_neg (by rw [hfree]; exact Bool.false_ne_true)
      refine .inr (.inr ⟨hoff, ?_⟩)
      simp only [hclaim, record, hexport, List.append_assoc]
      rfl

theorem register (h : c.Truthful) : c.register.2.Truthful := by
  rcases h.register_cases with ⟨e, heq⟩ | ⟨e, heq⟩ | ⟨hoff, heq⟩ <;> rw [heq]
  · exact h
  · refine ⟨h.name, h.object, ?_, ?_, h.own.concat (by simp) (by simp)⟩
    · rw [record, holdsName_concat]
      simp [Event.holdName, h.holdsName]
    · rw [record, holdsObject_concat]
      exact h.holdsObject
  · have hlog : c.log ++ [.nameClaimed c.names.busName true,
        .objectExported c.names.path c.interfaces true] =
          (c.log ++ [.nameClaimed c.names.busName true]) ++
            [.objectExported c.names.path c.interfaces true] := by simp
    refine ⟨?_, ?_, ?_, ?_, ?_⟩
    · simp
    · simp [Bus.isExported, SortedMap.contains]
    · simp only [hlog, holdsName_concat]
      simp [Event.holdName]
    · simp only [hlog, holdsObject_concat]
      simp [Event.holdObject]
    · simp only [hlog]
      exact (h.own.concat (by simp) (by simp)).concat (by simp) (by simp)

/-- Withdrawing gives back the name and the object, if the connection has them. -/
theorem withdraw (h : c.Truthful) : c.withdraw.Truthful ∧ c.withdraw.registered = false := by
  unfold Connection.withdraw
  by_cases hr : c.registered = true
  · rw [if_pos hr]
    have hlog : c.log ++ [.objectWithdrawn c.names.path, .nameReleased c.names.busName] =
        (c.log ++ [.objectWithdrawn c.names.path]) ++ [.nameReleased c.names.busName] := by simp
    refine ⟨⟨?_, ?_, ?_, ?_, ?_⟩, rfl⟩
    · simp [record, Bus.releaseName, Bus.withdrawObject]
    · simp [record, Bus.releaseName, Bus.withdrawObject, Bus.isExported, SortedMap.contains]
    · simp only [record, hlog, holdsName_concat]
      simp [Event.holdName]
    · simp only [record, hlog, holdsObject_concat]
      simp [Event.holdObject]
    · simp only [record, hlog]
      refine (h.own.concat (by simp) fun path hpath => ?_).concat (fun name hname => ?_) (by simp)
      · cases hpath
        exact h.holdsObject.trans hr
      · cases hname
        rw [holdsName_concat]
        exact h.holdsName.trans hr
  · rw [if_neg hr]
    exact ⟨h, Bool.eq_false_iff.mpr hr⟩

end Truthful

/-! ## Operations and runs -/

/-- What becomes of a truthful connection in the course of an operation. -/
structure Proceeds (op : Operation σ ρ) (c c' : Connection σ ρ) : Prop where
  truthful : c'.Truthful
  finished : c.shutDown = true → c'.shutDown = true
  lasting : c.registered = true → c'.registered = true ∨ c'.shutDown = true
  withdrawn : op ≠ .register → (c.shutDown = true → c.registered = false) →
    c'.shutDown = true → c'.registered = false

theorem Proceeds.refl (h : c.Truthful) : Proceeds op c c := ⟨h, id, .inl, fun _ => id⟩

theorem Proceeds.trans (h : Proceeds op c c₁) (h' : Proceeds op c₁ c₂) : Proceeds op c c₂ where
  truthful := h'.truthful
  finished hover := h'.finished (h.finished hover)
  lasting hr := (h.lasting hr).elim h'.lasting fun hover => .inr (h'.finished hover)
  withdrawn hop hc := h'.withdrawn hop (h.withdrawn hop hc)

theorem Stage.proceeds (hop : op.isRival = false) (h : c.Truthful)
    (hstage : Stage start op c c₁) : Proceeds op c c₁ := by
  rcases hstage.keepsPlace hop with hkeeps | ⟨rfl, rfl⟩ | ⟨-, rfl⟩
  · refine ⟨h.keepsPlace hkeeps, fun hover => hkeeps.shutDown.trans hover,
      fun hr => .inl (hkeeps.registered.trans hr), fun _ hc hover => ?_⟩
    rw [hkeeps.registered]
    exact hc (hkeeps.shutDown ▸ hover)
  · refine ⟨h.register, ?_, ?_, fun hop => absurd rfl hop⟩
    all_goals
      rcases h.register_cases with ⟨e, heq⟩ | ⟨e, heq⟩ | ⟨-, heq⟩ <;> rw [heq]
    · exact id
    · exact id
    · exact id
    · exact .inl
    · exact .inl
    · exact fun _ => .inl rfl
  · have hover : ({ c with shutDown := true } : Connection σ ρ).Truthful :=
      ⟨h.name, h.object, h.holdsName, h.holdsObject, h.own⟩
    have hshut : ({ c with shutDown := true } : Connection σ ρ).withdraw.shutDown = true := by
      unfold withdraw
      split <;> rfl
    exact ⟨hover.withdraw.1, fun _ => hshut, fun _ => .inr hshut, fun _ _ _ => hover.withdraw.2⟩

theorem proceeds_step (hop : op.isRival = false) (h : c.Truthful) {out : StepOutcome σ ρ}
    (hstep : c.step op = .ok out) : Proceeds op c out.2 :=
  (stages_step hstep).rel (fun _ h => .refl h) (fun h h' hc => (h hc).trans (h' (h hc).truthful))
    (fun hstage hc => hstage.proceeds hop hc) h

/-- Registering is not attempted any more when the shutdown is over. -/
def RegistersInTime (c : Connection σ ρ) (ops : List (Operation σ ρ)) : Prop :=
  ∀ before later c', ops = before ++ .register :: later → c.run before = .ok c' →
    c'.shutDown = false

/-- What becomes of a truthful connection in the course of a run. -/
theorem proceeds_run {ops : List (Operation σ ρ)} (hops : ∀ op ∈ ops, op.isRival = false)
    (h : c.Truthful) (hrun : c.run ops = .ok c₁) :
    c₁.Truthful ∧
      (c.registered = true → c₁.registered = true ∨ c₁.shutDown = true) ∧
      (c.shutDown = true → c₁.shutDown = true) ∧
      (c.RegistersInTime ops → (c.shutDown = true → c.registered = false) →
        c₁.shutDown = true → c₁.registered = false) := by
  induction ops generalizing c with
  | nil =>
    cases hrun
    exact ⟨h, .inl, id, fun _ => id⟩
  | cons op ops ih =>
    obtain ⟨out, hstep, hrest⟩ := run_cons.mp hrun
    have hfirst := proceeds_step (hops op List.mem_cons_self) h hstep
    obtain ⟨htruthful, hlasting, hover, hwithdrawn⟩ :=
      ih (fun op' hop' => hops op' (List.mem_cons_of_mem _ hop')) hfirst.truthful hrest
    refine ⟨htruthful, fun hr => (hfirst.lasting hr).elim hlasting fun h => .inr (hover h),
      fun hs => hover (hfirst.finished hs), fun htime hc => hwithdrawn ?_ ?_⟩
    · rintro before later c' rfl hbefore
      exact htime (op :: before) later c' rfl (run_cons.mpr ⟨out, hstep, hbefore⟩)
    · by_cases hregister : op = .register
      · -- Registering does not end the shutdown, and it was not over before.
        subst hregister
        have hbefore : c.shutDown = false := htime [] ops c rfl rfl
        cases hstep
        have hsame : c.register.2.shutDown = c.shutDown := by
          rcases h.register_cases with ⟨e, heq⟩ | ⟨e, heq⟩ | ⟨-, heq⟩ <;>
            exact congrArg (fun answered => answered.2.shutDown) heq
        intro hs
        have hs' : c.register.2.shutDown = true := hs
        rw [hsame, hbefore] at hs'
        cases hs'
      · exact hfirst.withdrawn hregister hc

theorem truthful_new (backend : Backend) (config : Config) (tables : HandleTables)
    (plans : List (ManagerPlan σ ρ)) : (new backend config tables plans).Truthful := by
  refine ⟨?_, rfl, rfl, rfl, fun before name h => ?_, fun before path h => ?_⟩
  · simp [Connection.new, Bus.empty]
  · simpa using List.prefix_nil.mp h
  · simpa using List.prefix_nil.mp h

/-- In every run in which nobody else takes the connection's name or path: once it has registered
successfully, the connection owns its name and exports its object as long as its shutdown is not
over; when the shutdown is over it has neither, if it did not try to register after that; and it
withdraws only what it was granted before. -/
theorem run_leaves_bus (backend : Backend) (config : Config) (tables : HandleTables)
    (plans : List (ManagerPlan σ ρ)) {ops : List (Operation σ ρ)}
    (hops : ∀ op ∈ ops, op.isRival = false) {c : Connection σ ρ}
    (hrun : (new backend config tables plans).run ops = .ok c) :
    ((new backend config tables plans).RegistersInTime ops → c.shutDown = true →
      c.bus.isExported c.names.path = false ∧ c.names.busName ∉ c.bus.names) ∧
    (∀ before later c₀, ops = before ++ .register :: later →
      (new backend config tables plans).run before = .ok c₀ → c₀.register.1 = .ok () →
      c.shutDown = false →
      c.bus.isExported c.names.path = true ∧ c.names.busName ∈ c.bus.names) ∧
    GivesBackOwn c.log := by
  have hnew := truthful_new backend config tables plans
  obtain ⟨htruthful, -, -, hwithdrawn⟩ := proceeds_run hops hnew hrun
  refine ⟨fun htime hover => ?_, fun before later c₀ hsplit hbefore hregister hon => ?_,
    htruthful.own⟩
  · have hoff := hwithdrawn htime (fun _ => rfl) hover
    refine ⟨htruthful.object.trans hoff, fun hname => ?_⟩
    rw [htruthful.name.mp hname] at hoff
    cases hoff
  · subst hsplit
    have hfirst := (proceeds_run
      (fun op hop => hops op (List.mem_append_left _ hop)) hnew hbefore).1
    obtain ⟨c', hbefore', hrest⟩ := run_append.mp hrun
    rw [hbefore, Except.ok.injEq] at hbefore'
    subst hbefore'
    obtain ⟨out, hstep, hlater⟩ := run_cons.mp hrest
    cases hstep
    have hregistered : c₀.register.2.registered = true := by
      rcases hfirst.register_cases with ⟨e, heq⟩ | ⟨e, heq⟩ | ⟨-, heq⟩ <;> rw [heq] at hregister ⊢
      · cases hregister
      · cases hregister
    obtain ⟨-, hlasting, -⟩ := proceeds_run
      (fun op hop => hops op (List.mem_append_right _ (List.mem_cons_of_mem _ hop)))
      hfirst.register hlater
    have hr : c.registered = true :=
      (hlasting hregistered).resolve_right fun h => by rw [hon] at h; cases h
    exact ⟨htruthful.object.trans hr, htruthful.name.mpr hr⟩

/-- A connection without managers, whose backend is done with its shutdown at once. -/
def solitary : Connection Unit Unit :=
  .new ⟨"sample", "account", [], [], none, false, fun _ _ _ => none⟩ .standard
    ⟨.onDemand .contact, none, none, none⟩ []

/-- Such a connection is off the bus as soon as it is disconnected. -/
theorem solitary_leavesBus :
    ∃ c, solitary.run [.register, .connect, .disconnect ⟨1⟩] = .ok c ∧ c.shutDown = true ∧
      c.bus.isExported c.names.path = false ∧ c.names.busName ∉ c.bus.names := by
  have heval : ((solitary.run [.register, .connect, .disconnect ⟨1⟩]).toOption.any
      fun c => c.shutDown) = true := by decide +kernel
  obtain ⟨c, hrun, hover⟩ := Except.eq_ok_of_any heval
  have htime : solitary.RegistersInTime [.register, .connect, .disconnect ⟨1⟩] := by
    intro before later c' hsplit hbefore
    cases before with
    | nil =>
      cases hbefore
      rfl
    | cons op before =>
      have hlate : Operation.register ∈
          ([.connect, .disconnect ⟨1⟩] : List (Operation Unit Unit)) := by
        rw [(List.cons.inj hsplit).2]
        simp
      simp at hlate
  exact ⟨c, hrun, hover, (run_leaves_bus _ _ _ _ (by simp [Operation.isRival]) hrun).1 htime hover⟩

/-- It is back on the bus for good if it registers after that, though its shutdown is over. -/
theorem solitary_backOnBus :
    ∃ c, solitary.run [.register, .disconnect ⟨1⟩, .register] = .ok c ∧ c.shutDown = true ∧
      c.bus.isExported c.names.path = true ∧ c.names.busName ∈ c.bus.names := by
  have heval : ((solitary.run [.register, .disconnect ⟨1⟩, .register]).toOption.any fun c =>
      c.shutDown && (c.bus.isExported c.names.path && c.names.busName ∈ c.bus.names)) = true := by
    decide +kernel
  obtain ⟨c, hrun, hc⟩ := Except.eq_ok_of_any heval
  simp only [Bool.and_eq_true, decide_eq_true_iff] at hc
  exact ⟨c, hrun, hc⟩

end Connection

end Telepathy
