import Telepathy.Proofs.Connection.Heeding

set_option autoImplicit false

/-!
# Who is watched, and what is wanted

Over a run, a connection that lives minds the declarations of its clients, and one that is gone is
at rest for good. So what clients and the backend see of it can be said in terms of the declarations
that were made and not taken back, without a word on how the connection counts them.
-/

namespace Telepathy

open InterestTable (Alternates)

namespace Connection

variable {σ ρ : Type} {c c₁ : Connection σ ρ} {op : Operation σ ρ}

/-! ## Runs -/

/-- What holds between operations: while the connection lives, it minds the declarations there are;
once it is gone, it is at rest. -/
structure Attentive (possible : List String) (d : Declarations) (c : Connection σ ρ) : Prop where
  minds : c.status ≠ .disconnected → c.attention.Minds possible d
  rests : c.status = .disconnected → c.attention.AtRest

variable {possible : List String} {d : Declarations}

/-- Once a connection is gone, no operation moves its attention. -/
theorem attention_of_gone (hgone : c.status = .disconnected) (hrest : c.attention.AtRest)
    {out : StepOutcome σ ρ} (hstep : c.step op = .ok out) :
    out.2.status = .disconnected ∧ out.2.attention = c.attention := by
  cases attends_step hstep with
  | aloof hop hstatus h => exact ⟨hstatus.mpr hgone, h⟩
  | ends hop hlive => exact absurd hgone hlive
  | @heeds i hop hstatus h hadd =>
    have hclear : i ≠ .clear := by
      rintro rfl
      cases op <;> cases hop
    exact ⟨hstatus.trans hgone, h.trans (hrest.perform hclear (hadd hgone))⟩
  | refused hop _ h =>
    rw [h]
    exact ⟨hgone, rfl⟩

/-- Each operation is dealt with as the declarations ask for. -/
theorem Attentive.step (h : c.Attentive possible d) {out : StepOutcome σ ρ}
    (hstep : c.step op = .ok out) :
    out.2.Attentive possible (op.interest?.toList.foldl (Declarations.perform possible) d) := by
  by_cases hgone : c.status = .disconnected
  · obtain ⟨hstatus, hsame⟩ := attention_of_gone hgone (h.rests hgone) hstep
    exact ⟨fun hlive => absurd hstatus hlive, fun _ => hsame ▸ h.rests hgone⟩
  · have hminds := h.minds hgone
    cases attends_step hstep with
    | aloof hop hstatus hsame =>
      rw [hop]
      exact ⟨fun _ => hsame ▸ hminds, fun hs => absurd (hstatus.mp hs) hgone⟩
    | ends hop _ hstatus hforgot =>
      exact ⟨fun hlive => absurd hstatus hlive, fun _ => hforgot ▸ hminds.forget⟩
    | @heeds i hop hstatus hperformed =>
      have hclear : i ≠ .clear := by
        rintro rfl
        cases op <;> cases hop
      rw [hop]
      exact ⟨fun _ => hperformed ▸ hminds.perform hclear, fun hs => absurd (hstatus ▸ hs) hgone⟩
    | refused hop hstatus => exact absurd hstatus hgone

theorem Attentive.run (h : c.Attentive possible d) {ops : List (Operation σ ρ)}
    (hrun : c.run ops = .ok c₁) :
    c₁.Attentive possible
      ((ops.filterMap Operation.interest?).foldl (Declarations.perform possible) d) := by
  induction ops generalizing c d with
  | nil =>
    cases hrun
    exact h
  | cons op ops ih =>
    obtain ⟨out, hstep, hrest⟩ := run_cons.mp hrun
    have hrun := ih (h.step hstep) hrest
    cases hop : op.interest? with
    | none =>
      rw [hop] at hrun
      rw [List.filterMap_cons_none hop]
      exact hrun
    | some i =>
      rw [hop] at hrun
      rw [List.filterMap_cons_some hop]
      exact hrun

theorem attentive_new (backend : Backend) (config : Config) (tables : HandleTables)
    (plans : List (ManagerPlan σ ρ)) :
    (new backend config tables plans).Attentive backend.interests Declarations.none :=
  ⟨fun _ => Attention.minds_new backend.interests, nofun⟩

/-- What a connection that is gone does about interests is over. -/
theorem attention_run_of_gone (hgone : c.status = .disconnected) (hrest : c.attention.AtRest)
    {ops : List (Operation σ ρ)} (hrun : c.run ops = .ok c₁) :
    c₁.status = .disconnected ∧ c₁.attention = c.attention := by
  induction ops generalizing c with
  | nil =>
    cases hrun
    exact ⟨hgone, rfl⟩
  | cons op ops ih =>
    obtain ⟨out, hstep, hrun⟩ := run_cons.mp hrun
    obtain ⟨hgone', hsame⟩ := attention_of_gone hgone hrest hstep
    obtain ⟨hgone₁, hsame₁⟩ := ih hgone' (hsame ▸ hrest) hrun
    exact ⟨hgone₁, hsame₁.trans hsame⟩

/-! ## What clients and the backend see -/

/-- What the backend was told of a token so far, each time whether it became wanted. -/
def hooksFor (c : Connection σ ρ) (token : String) : List Bool :=
  c.log.filterMap (·.hookOf? token)

/-- What the bus was told of a client so far, each time whether to watch it. -/
def watchCallsFor (c : Connection σ ρ) (client : ClientName) : List Bool :=
  c.log.filterMap (·.watchOf? client)

theorem hooks_attention (c : Connection σ ρ) (token : String) :
    c.attention.hooks token = c.hooksFor token := by
  rw [Attention.hooks, attention, List.filterMap_filter, hooksFor]
  refine congrArg (List.filterMap · _) (funext fun e => ?_)
  cases e with
  | hook k => cases k <;> rfl
  | _ => rfl

theorem watchCalls_attention (c : Connection σ ρ) (client : ClientName) :
    c.attention.watchCalls client = c.watchCallsFor client := by
  rw [Attention.watchCalls, attention, List.filterMap_filter, watchCallsFor]
  refine congrArg (List.filterMap · _) (funext fun e => ?_)
  cases e with
  | hook k => cases k <;> rfl
  | _ => rfl

end Connection

/-- Reports that take turns end with what has come to be. -/
theorem InterestTable.Alternates.last {b b' : Bool} {said : List Bool} (h : Alternates b said b') :
    b' = said.getLast?.getD b := by
  induction h with
  | nil b => rfl
  | cons _ ih => rw [List.getLast?_cons, Option.getD_some, ih]

namespace Connection

variable {σ ρ : Type}

/-- A connection watches the clients that have declared something, and has its backend know what
they want. Throughout a run, whether it is told of a token or of a client, the news takes turns,
from wanted and from watched on, so that nobody is watched who is, or let go who is not. While the
connection lives, the clients that are watched are those with a declaration that was not taken back,
the tokens that are wanted are those of such declarations, and the last that the backend was told of
a token is whether it is wanted. Once the connection is gone, nobody is watched and nothing wanted,
declarations are refused, and nothing more is told of anything. -/
theorem run_watches_declarers (backend : Backend) (config : Config) (tables : HandleTables)
    (plans : List (ManagerPlan σ ρ)) {ops : List (Operation σ ρ)} {c : Connection σ ρ}
    (hrun : (new backend config tables plans).run ops = .ok c) :
    (∀ token, ∃ b, Alternates false (c.hooksFor token) b) ∧
    (∀ client, Alternates false (c.watchCallsFor client) (decide (client ∈ c.bus.watched))) ∧
    (c.status ≠ .disconnected →
      let d := Declarations.run backend.interests (ops.filterMap Operation.interest?)
      (∀ client, client ∈ c.bus.watched ↔ d.Present client) ∧
      (∀ token, c.interests.isWanted token = true ↔ d.Wanted token) ∧
      ∀ token, c.interests.isWanted token = true ↔ (c.hooksFor token).getLast? = some true) ∧
    (c.status = .disconnected →
      (∀ client, client ∉ c.bus.watched ∧ c.interests.declared.contains client = false) ∧
      (∀ token, c.interests.isWanted token = false) ∧
      (∀ client tokens, c.addInterest client tokens = (.error .notConnected, c)) ∧
      ∀ ops' c', c.run ops' = .ok c' →
        (∀ token, c'.hooksFor token = c.hooksFor token) ∧
        (∀ client, c'.watchCallsFor client = c.watchCallsFor client) ∧
        (∀ client, client ∉ c'.bus.watched) ∧
        (∀ token, c'.interests.isWanted token = false) ∧
        ∀ client tokens, c'.addInterest client tokens = (.error .notConnected, c')) := by
  have hattentive := (attentive_new backend config tables plans).run hrun
  have hunwanted : ∀ {c : Connection σ ρ}, c.attention.AtRest →
      ∀ token, c.interests.isWanted token = false := by
    intro c hrest token
    have hholders : c.interests.holders = .empty := hrest.holders
    rw [InterestTable.isWanted, InterestTable.clientsInterested, hholders]
    rfl
  by_cases hgone : c.status = .disconnected
  · have hrest := hattentive.rests hgone
    refine ⟨fun token => ?_, fun client => ?_, fun hlive => absurd hgone hlive, fun _ =>
      ⟨fun client => ⟨hrest.watched client, ?_⟩, hunwanted hrest,
        fun client tokens => if_pos hgone, fun ops' c' hrun' => ?_⟩⟩
    · rw [← hooks_attention]
      exact hrest.hooks token
    · have hnot : client ∉ c.bus.watched := hrest.watched client
      rw [← watchCalls_attention, decide_eq_false hnot]
      exact hrest.calls client
    · have hdeclared : c.interests.declared = .empty := hrest.declared
      rw [hdeclared]
      rfl
    · obtain ⟨hgone', hsame⟩ := attention_run_of_gone hgone hrest hrun'
      have hrest' : c'.attention.AtRest := hsame ▸ hrest
      refine ⟨fun token => ?_, fun client => ?_, hrest'.watched, hunwanted hrest',
        fun client tokens => if_pos hgone'⟩
      · rw [← hooks_attention, hsame, hooks_attention]
      · rw [← watchCalls_attention, hsame, watchCalls_attention]
  · have hminds := hattentive.minds hgone
    refine ⟨fun token => ?_, fun client => ?_, fun _ =>
      ⟨hminds.watched, fun token => hminds.keeps.isWanted_iff, fun token => ?_⟩,
      fun hs => absurd hs hgone⟩
    · rw [← hooks_attention]
      exact ⟨_, hminds.hooks token⟩
    · rw [← watchCalls_attention]
      exact hminds.calls client _ decide_eq_true_iff
    · have hlast := (hminds.hooks token).last
      rw [hooks_attention] at hlast
      have hwanted : c.interests.isWanted token = (c.hooksFor token).getLast?.getD false := hlast
      rw [hwanted]
      cases (c.hooksFor token).getLast? <;> simp

/-- A connection without managers, in whose protocol one feature may be wanted. -/
def presenceOnly : Connection Unit Unit :=
  .new ⟨"sample", "account", [], ["presence"], none, false, fun _ _ _ => none⟩ .standard
    ⟨.onDemand .contact, none, none, none⟩ []

/-- Two clients want the same, one of them twice; both go, one comes back, and all is over. -/
def overlapping : List (Operation Unit Unit) :=
  [.addInterest ⟨"first"⟩ ["presence", "presence"], .addInterest ⟨"second"⟩ ["presence", "mail"],
    .removeInterest ⟨"first"⟩ ["presence", "presence"], .clientVanished ⟨"second"⟩,
    .addInterest ⟨"first"⟩ ["presence"], .changeStatus .disconnected .requested]

/-- The backend then knew the feature wanted, unwanted and wanted again, and hears no more of it. -/
theorem overlapping_told :
    ∃ c, presenceOnly.run overlapping = .ok c ∧ c.hooksFor "presence" = [true, false, true] ∧
      c.watchCallsFor ⟨"first"⟩ = [true, false, true, false] ∧
      ∀ ops' c', c.run ops' = .ok c' → c'.hooksFor "presence" = [true, false, true] ∧
        c'.watchCallsFor ⟨"first"⟩ = [true, false, true, false] := by
  have heval : ((presenceOnly.run overlapping).toOption.any fun c =>
      decide (c.status = .disconnected ∧ c.hooksFor "presence" = [true, false, true] ∧
        c.watchCallsFor ⟨"first"⟩ = [true, false, true, false])) = true := by
    decide +kernel
  obtain ⟨c, hrun, hc⟩ := Except.eq_ok_of_any heval
  obtain ⟨hgone, hhooks, hcalls⟩ := of_decide_eq_true hc
  refine ⟨c, hrun, hhooks, hcalls, fun ops' c' hrun' => ?_⟩
  obtain ⟨-, -, hover⟩ := ((run_watches_declarers _ _ _ _ hrun).2.2.2 hgone).2
  obtain ⟨hhooks', hcalls', -⟩ := hover ops' c' hrun'
  exact ⟨(hhooks' _).trans hhooks, (hcalls' _).trans hcalls⟩

end Connection

end Telepathy
