import Telepathy.Proofs.Connection.Lives
import Telepathy.Proofs.Connection.References
import Telepathy.Proofs.Connection.Tables

set_option autoImplicit false

/-!
# The local user, as clients know it

A connection does not become connected before the local user is known, and from then on it tells
clients whenever the local user gets another handle. So a client that asked once, and then goes by
what it hears, knows who the local user is until the connection is gone; and since the connection
holds a reference on that handle, it means the same all the time, even if unused handles are
reclaimed.

That nobody else tells news of the local user supposes that the application's own managers leave
them to the connection; contact lists do.
-/

namespace Telepathy

variable {σ ρ : Type}

/-! ## News of the local user -/

/-- The local user's new handle and its identifier, if an event is the news of it by the object at
`path`. -/
def Event.selfChange? (path : ObjectPath) : Event → Option (Handle × String)
  | .signal p (.selfContactChanged h id) => if p = path then some (h, id) else none
  | _ => none

/-- An event that is told as one of the signals of channels is no such news. -/
theorem Event.selfChange?_of_modest {path p : ObjectPath} {s : Signal} (h : s.IsModest) :
    (Event.signal p s).selfChange? path = none := by
  cases s with
  | selfContactChanged handle id => exact h.elim
  | _ => rfl

theorem Event.IsPlain.selfChange?_eq_none {path : ObjectPath} {e : Event} (h : e.IsPlain) :
    e.selfChange? path = none := by
  cases e with
  | signal p s =>
    cases s with
    | selfContactChanged handle id => exact h.elim
    | _ => rfl
  | _ => rfl

/-- No handle is told twice in a row. -/
def NeverTwice (news : List (Handle × String)) : Prop :=
  ∀ before a b later, news = before ++ a :: b :: later → a.1 ≠ b.1

theorem neverTwice_nil : NeverTwice [] := by
  intro before a b later h
  cases before <;> cases h

theorem NeverTwice.concat {news : List (Handle × String)} {b : Handle × String}
    (h : NeverTwice news) (hlast : ∀ a ∈ news.getLast?, a.1 ≠ b.1) : NeverTwice (news ++ [b]) := by
  intro before x y later heq
  rcases List.eq_nil_or_concat later with rfl | ⟨later', z, rfl⟩
  · have hsplit : news ++ [b] = (before ++ [x]) ++ [y] := by simp [heq]
    obtain ⟨rfl, hy⟩ := List.append_inj' hsplit rfl
    cases hy
    exact hlast x (by simp)
  · have hsplit : news ++ [b] = (before ++ x :: y :: later') ++ [z] := by simp [heq]
    obtain ⟨rfl, -⟩ := List.append_inj' hsplit rfl
    exact h before x y later' rfl

/-- What a client holds of the local user that knew something and has heard some news since. -/
def lastHeard (known : Option (Handle × String)) (news : List (Handle × String)) :
    Option (Handle × String) :=
  news.foldl (fun _ u => some u) known

theorem lastHeard_concat (known : Option (Handle × String)) (news : List (Handle × String))
    (u : Handle × String) : lastHeard known (news ++ [u]) = some u := by
  simp [lastHeard]

/-! ## Managers that leave the local user to the connection -/

/-- An effect that is no news of the local user by the object at `path`. -/
def Effect.IsReticent (path : ObjectPath) (e : Effect) : Prop :=
  ∀ h id, e ≠ .signal path (.selfContactChanged h id)

theorem Effect.IsModest.isReticent {path : ObjectPath} {e : Effect} (h : e.IsModest) :
    e.IsReticent path := by
  rintro handle id rfl
  exact h

/-- A manager of the application's own that leaves news of the local user to the connection at
`path`. -/
structure Behaviour.Reticent (b : Behaviour σ) (path : ObjectPath) : Prop where
  answer : ∀ state r, ∀ e ∈ (b.answer state r).effects, e.IsReticent path
  statusChanged : ∀ state status, ∀ e ∈ (b.statusChanged state status).2, e.IsReticent path

namespace Manager

/-- A manager that leaves news of the local user to the connection at `path`. -/
def Reticent (path : ObjectPath) : Manager σ ρ → Prop
  | custom b _ => b.Reticent path
  | contacts _ _ _ => True

variable {path : ObjectPath} {m : Manager σ ρ}

theorem reticent_lasting (path : ObjectPath) :
    Manager.Lasting (σ := σ) (ρ := ρ) (Manager.Reticent path) where
  offer m tables r h := by cases m <;> exact h
  statusChanged m tables status h := by cases m <;> exact h
  performContacts {m tables op out} hop _ := by
    cases m <;> cases hop
    trivial
  changeServer {m tables f t} ht _ := by
    cases m <;> cases ht
    trivial
  changeState {m tables f t} ht h := by
    cases m <;> cases ht
    exact h

/-- Whatever a manager does in a call, it does not speak of the local user. -/
theorem Ends.isReticent {start : Connection σ ρ} {op : Operation σ ρ} {seat : Nat}
    {status : Status} {tables : HandleTables} {t : Turn σ ρ}
    (ht : m.Ends start op seat status tables t) (hm : m.Reticent path) :
    ∀ e ∈ t.effects, e.IsReticent path := by
  cases m with
  | custom b state =>
    cases ht with
    | offer htarget => exact hm.answer state _
    | statusChanged => exact hm.statusChanged state status
    | performContacts _ _ _ hperform => cases hperform
    | changeServer _ _ _ _ hchange => cases hchange
    | changeState _ _ _ hchange =>
      rw [effects_changeState hchange]
      simp
  | contacts server list data =>
    cases ht with
    | offer htarget => exact fun e he => (isModest_offer _ _ _ _ _ e he).isReticent
    | statusChanged => exact fun e he => (isModest_statusChanged _ _ _ _ _ e he).isReticent
    | performContacts _ _ _ hperform =>
      exact fun e he => (isModest_performContacts hperform e he).isReticent
    | changeServer _ _ _ _ hchange =>
      rw [effects_changeServer hchange]
      simp
    | changeState _ _ _ hchange => cases hchange

end Manager

namespace Connection

variable {start c c₁ c₂ : Connection σ ρ} {op : Operation σ ρ}

/-- All news of the local user so far, by the connection's own object. -/
def selfChanges (c : Connection σ ρ) : List (Handle × String) :=
  c.log.filterMap (Event.selfChange? c.names.path)

/-- What a client gets to know that asks for the local user: the handle and its identifier. -/
def localUser (c : Connection σ ρ) : Option (Handle × String) :=
  c.self.map fun h => (h, (c.tables.contact.inspect h).getD "")

theorem selfChanges_of_log (hnames : c₁.names = c.names) {events : List Event}
    (hlog : c₁.log = c.log ++ events) :
    c₁.selfChanges = c.selfChanges ++ events.filterMap (Event.selfChange? c.names.path) := by
  rw [selfChanges, hnames, hlog, List.filterMap_append, selfChanges]

/-- Nothing is said of the local user, and the connection has the name that it had. -/
structure Quiet (c c' : Connection σ ρ) : Prop where
  names : c'.names = c.names
  selfChanges : c'.selfChanges = c.selfChanges

namespace Quiet

theorem refl (c : Connection σ ρ) : c.Quiet c := ⟨rfl, rfl⟩

theorem trans (h : c.Quiet c₁) (h' : c₁.Quiet c₂) : c.Quiet c₂ :=
  ⟨h'.names.trans h.names, h'.selfChanges.trans h.selfChanges⟩

theorem of_log (hnames : c₁.names = c.names) {events : List Event}
    (hlog : c₁.log = c.log ++ events)
    (h : ∀ e ∈ events, e.selfChange? c.names.path = none) : c.Quiet c₁ := by
  refine ⟨hnames, (selfChanges_of_log hnames hlog).trans ?_⟩
  rw [List.filterMap_eq_nil_iff.mpr h, List.append_nil]

end Quiet

theorem OnBus.quiet (h : c.OnBus c₁) : c.Quiet c₁ := by
  obtain ⟨events, hlog, hnone⟩ := h.events
  refine .of_log (by rw [h.frame]) hlog fun e he => ?_
  cases e with
  | signal p s => exact absurd he (hnone p s)
  | _ => rfl

theorem quiet_settle {r : Report} (h : c.settle r = .ok c₁) : c.Quiet c₁ := by
  obtain ⟨s, hs, rfl⟩ := settle_cases h
  refine .of_log rfl rfl fun e he => ?_
  rcases RequestLedger.mem_settle_events hs he with ⟨p, signal, rfl, hmodest⟩ | ⟨call, a, rfl, -⟩
  · exact Event.selfChange?_of_modest hmodest
  · rfl

theorem quiet_perform {seat : Nat} {e : Effect} (he : e.IsReticent c.names.path)
    (h : c.perform seat e = .ok c₁) : c.Quiet c₁ := by
  cases e with
  | report r => exact quiet_settle (Except.mapError_eq_ok.mp h)
  | signal p s =>
    cases h
    refine .of_log rfl rfl fun e hmem => ?_
    obtain rfl := List.mem_singleton.mp hmem
    cases s with
    | selfContactChanged handle id =>
      refine if_neg fun hp => ?_
      subst hp
      exact he handle id rfl
    | _ => rfl
  | called call =>
    cases h
    exact .of_log rfl rfl (by simp [Event.selfChange?])

theorem quiet_performAll {seat : Nat} {effects : List Effect}
    (heffects : ∀ e ∈ effects, e.IsReticent c.names.path)
    (h : effects.foldlM (perform seat) c = .ok c₁) : c.Quiet c₁ := by
  induction effects generalizing c with
  | nil =>
    cases h
    exact .refl _
  | cons e effects ih =>
    obtain ⟨c', hfirst, hrest⟩ := Except.bind_eq_ok.mp (by rwa [List.foldlM_cons] at h)
    have hquiet := quiet_perform (heffects e List.mem_cons_self) hfirst
    exact hquiet.trans (ih (fun e he => hquiet.names ▸ heffects e (.tail _ he)) hrest)

theorem quiet_takeTurn {seat : Nat} {t : Turn σ ρ}
    (ht : ∀ e ∈ t.effects, e.IsReticent c.names.path) (h : c.takeTurn seat t = .ok c₁) :
    c.Quiet c₁ := by
  have hplaced : c.Quiet
      { c with managers := c.managers.set seat t.manager, tables := t.tables } := ⟨rfl, rfl⟩
  exact hplaced.trans (quiet_performAll ht h)

/-! ## Stages -/

/-- What a stage of an operation is to the local user. -/
inductive Concerns (op : Operation σ ρ) (start c c' : Connection σ ρ) : Prop
  /-- Nothing happens to it. -/
  | nothing (hquiet : c.Quiet c') (hself : c'.self = c.self) (hstatus : c'.status = c.status)
  /-- The connection enters a status; if it becomes connected, the local user is known. -/
  | status (hquiet : c.Quiet c') (hself : c'.self = c.self)
      (hroute : c.status.route c'.status = .ok .direct)
      (hknown : c'.status = .connected → c.self.isSome = true)
  /-- The local user is found out. -/
  | found {name : ContactName} {h : Handle} (hop : op = .setSelf name)
      (hvalid : op.Apt start → c.tables.isValid ⟨.contact, h⟩ = true)
      (hself : c'.self = some h) (hstatus : c'.status = c.status) (hnames : c'.names = c.names)
      (hnews : c'.selfChanges = c.selfChanges ++
        if c.self ≠ some h ∧ c.status = .connected then
          [(h, (c.tables.contact.inspect h).getD "")] else [])
  /-- The local user is forgotten, since the connection is gone. -/
  | forgotten (hquiet : c.Quiet c') (hgone : c.status = .disconnected)
      (hstatus : c'.status = c.status)

theorem OnBus.concerns (h : c.OnBus c₁) : Concerns op start c c₁ := by
  refine .nothing h.quiet ?_ ?_
  · rw [h.frame]
  · rw [h.frame]

theorem Stage.concerns (hm : AllManagers (Manager.Reticent c.names.path) c)
    (h : Stage start op c c₁) : Concerns op start c c₁ := by
  cases h with
  | turn hseat ht hturn =>
    have hserved := served_takeTurn hturn
    refine .nothing (quiet_takeTurn (ht.isReticent (hm _ _ hseat)) hturn) ?_ hserved.status
    rw [hserved.frame]
  | settle hop hsettle =>
    have hserved := served_settle hsettle
    refine .nothing (quiet_settle hsettle) ?_ hserved.status
    rw [hserved.frame]
  | register hop => exact (onBus_register c).concerns
  | loseName hop => exact (onBus_loseName c).concerns
  | losePath hop => exact (onBus_losePath c).concerns
  | leave hstatus hover => exact (onBus_leave c).concerns
  | say hplain =>
    exact .nothing (.of_log rfl rfl fun e he => (hplain e he).selfChange?_eq_none) rfl rfl
  | status hroute hself => exact .status ⟨rfl, rfl⟩ rfl hroute hself
  | @setSelf name x hop hstatus hvalid =>
    refine .found hop hvalid rfl rfl rfl ?_
    show (c.log ++ c.selfNews x).filterMap (Event.selfChange? c.names.path) = _
    rw [List.filterMap_append]
    refine congrArg (c.selfChanges ++ ·) ?_
    unfold selfNews
    split
    · simp [Event.selfChange?]
    · rfl
  | forgetSelf hstatus => exact .forgotten ⟨rfl, rfl⟩ hstatus rfl
  | _ => exact .nothing ⟨rfl, rfl⟩ rfl rfl

end Connection

/-- How far the life of a connection has gone. -/
def Status.age : Status → Nat
  | .new => 0
  | .connecting => 1
  | .connected => 2
  | .disconnected => 3

theorem Status.age_lt_of_route {source target : Status} (h : source.route target = .ok .direct) :
    source.age < target.age := by
  cases source <;> cases target <;> first | decide | cases h

theorem Status.eq_of_age {s t : Status} (h : s.age = t.age) : s = t := by
  cases s <;> cases t <;> first | rfl | cases h

namespace Connection

variable {start c c₁ c₂ : Connection σ ρ} {op : Operation σ ρ}

namespace Concerns

theorem names (h : Concerns op start c c₁) : c₁.names = c.names := by
  cases h with
  | nothing hquiet hself hstatus => exact hquiet.names
  | status hquiet hself hroute hknown => exact hquiet.names
  | found hop hvalid hself hstatus hnames hnews => exact hnames
  | forgotten hquiet hgone hstatus => exact hquiet.names

/-- Life goes on in one direction only. -/
theorem age (h : Concerns op start c c₁) : c.status.age ≤ c₁.status.age := by
  cases h with
  | nothing hquiet hself hstatus => exact Nat.le_of_eq (congrArg _ hstatus.symm)
  | status hquiet hself hroute hknown => exact Nat.le_of_lt (Status.age_lt_of_route hroute)
  | found hop hvalid hself hstatus hnames hnews => exact Nat.le_of_eq (congrArg _ hstatus.symm)
  | forgotten hquiet hgone hstatus => exact Nat.le_of_eq (congrArg _ hstatus.symm)

/-- News of the local user is told only when it is found out, and while the connection is
connected. -/
theorem news (h : Concerns op start c c₁) :
    c₁.selfChanges = c.selfChanges ∨
      (∃ name, op = .setSelf name) ∧ c.status = .connected ∧ c₁.status = .connected := by
  cases h with
  | nothing hquiet hself hstatus => exact .inl hquiet.selfChanges
  | status hquiet hself hroute hknown => exact .inl hquiet.selfChanges
  | found hop hvalid hself hstatus hnames hnews =>
    split at hnews
    case isTrue hnew => exact .inr ⟨⟨_, hop⟩, hnew.2, hstatus.trans hnew.2⟩
    case isFalse => exact .inl (hnews.trans (List.append_nil _))
  | forgotten hquiet hgone hstatus => exact .inl hquiet.selfChanges

end Concerns

/-! ## What holds in the course of a run -/

/-- What a connection says of the local user so far: nothing before it is connected, no handle twice
in a row, and while it is connected the last that it said is still so; and then the local user is
known. -/
structure Candid (c : Connection σ ρ) : Prop where
  known : c.status = .connected → c.self.isSome = true
  early : c.status.age < Status.connected.age → c.selfChanges = []
  last : c.status = .connected → ∀ u ∈ c.selfChanges.getLast?, c.self = some u.1
  never : NeverTwice c.selfChanges

theorem Candid.concerns (h : c.Candid) (hc : Concerns op start c c₁) : c₁.Candid := by
  cases hc with
  | nothing hquiet hself hstatus =>
    refine ⟨?_, ?_, ?_, ?_⟩
    · rw [hstatus, hself]
      exact h.known
    · rw [hstatus, hquiet.selfChanges]
      exact h.early
    · rw [hstatus, hself, hquiet.selfChanges]
      exact h.last
    · rw [hquiet.selfChanges]
      exact h.never
  | status hquiet hself hroute hknown =>
    have hage := Status.age_lt_of_route hroute
    refine ⟨fun hconnected => hself ▸ hknown hconnected, fun hyoung => ?_, fun hconnected => ?_, ?_⟩
    · rw [hquiet.selfChanges]
      exact h.early (Nat.lt_trans hage hyoung)
    · rw [hquiet.selfChanges, h.early (hconnected ▸ hage)]
      simp
    · rw [hquiet.selfChanges]
      exact h.never
  | @found name x hop hvalid hself hstatus hnames hnews =>
    by_cases hnew : c.self ≠ some x ∧ c.status = .connected
    · rw [if_pos hnew] at hnews
      refine ⟨fun _ => hself ▸ rfl, fun hyoung => ?_, fun _ => ?_, ?_⟩
      · rw [hstatus, hnew.2] at hyoung
        exact absurd hyoung (Nat.lt_irrefl _)
      · rw [hnews, hself]
        simp
      · rw [hnews]
        refine h.never.concat fun u hu heq => hnew.1 ?_
        rw [h.last hnew.2 u hu, heq]
    · rw [if_neg hnew, List.append_nil] at hnews
      refine ⟨fun _ => hself ▸ rfl, ?_, fun hconnected u hu => ?_, ?_⟩
      · rw [hstatus, hnews]
        exact h.early
      · rw [hstatus] at hconnected
        rw [hnews] at hu
        have hsame := Decidable.not_not.mp fun hne => hnew ⟨hne, hconnected⟩
        rw [hself, ← hsame, h.last hconnected u hu]
      · rw [hnews]
        exact h.never
  | forgotten hquiet hgone hstatus =>
    rw [hgone] at hstatus
    refine ⟨fun hconnected => ?_, fun hyoung => ?_, fun hconnected => ?_, ?_⟩
    · rw [hstatus] at hconnected
      cases hconnected
    · rw [hstatus] at hyoung
      exact absurd hyoung (by decide)
    · rw [hstatus] at hconnected
      cases hconnected
    · rw [hquiet.selfChanges]
      exact h.never

/-- Whoever knew `known` of the local user when `before` was said still knows who it is
while the connection is connected, by what has been said since. -/
structure Followed (before : List (Handle × String)) (known : Option (Handle × String))
    (c : Connection σ ρ) : Prop where
  since : Status.connected.age ≤ c.status.age
  told : c.status = .connected → ∃ news, c.selfChanges = before ++ news ∧
    c.localUser = lastHeard known news

variable {before : List (Handle × String)} {known : Option (Handle × String)}
  {others : List Reference}

/-- A handle that is in use before and after a stage has the same identifier. -/
theorem inspect_of_evolves {ts ts' : HandleTables} (hsound : ts.Sound) (h : ts.Evolves ts')
    {x : Handle} (hvalid : ts.isValid ⟨.contact, x⟩ = true)
    (hvalid' : ts'.isValid ⟨.contact, x⟩ = true) :
    ts'.contact.inspect x = ts.contact.inspect x := by
  obtain ⟨id, hid⟩ := HandleTables.isValid_iff.mp hvalid
  obtain ⟨id', hid'⟩ := HandleTables.isValid_iff.mp hvalid'
  have hsame := hsound.inspect_unchanged h.succeeds hid hid'
  have hinspect : ts.contact.inspect x = some id := hid
  have hinspect' : ts'.contact.inspect x = some id' := hid'
  rw [hinspect, hinspect', hsame]

theorem Followed.concerns (hbalanced : Balanced others c) (hbalanced' : Balanced others c₁)
    (hevolves : c.tables.Evolves c₁.tables) (hapt : op.Apt start) (h : Followed before known c)
    (hc : Concerns op start c c₁) : Followed before known c₁ := by
  refine ⟨Nat.le_trans h.since hc.age, fun hconnected => ?_⟩
  have hstill : c.status = .connected := by
    refine Status.eq_of_age (Nat.le_antisymm ?_ h.since)
    rw [← hconnected]
    exact hc.age
  obtain ⟨news, hnews, huser⟩ := h.told hstill
  have hsame : ∀ {x}, c₁.self = some x → c.tables.isValid ⟨.contact, x⟩ = true →
      c₁.localUser = some (x, (c.tables.contact.inspect x).getD "") := by
    intro x hx hvalid
    have hinspect := inspect_of_evolves hbalanced.counts.sound hevolves hvalid
      (hbalanced'.isValid_self hx)
    rw [localUser, hx, Option.map_some, hinspect]
  have hkept : c₁.self = c.self → c₁.localUser = c.localUser := by
    intro hself
    cases hx : c.self with
    | none => rw [localUser, localUser, hself, hx]; rfl
    | some x =>
      rw [hsame (hself.trans hx) (hbalanced.isValid_self hx), localUser, hx]
      rfl
  cases hc with
  | nothing hquiet hself hstatus =>
    exact ⟨news, hquiet.selfChanges.trans hnews, (hkept hself).trans huser⟩
  | status hquiet hself hroute hknown =>
    exact ⟨news, hquiet.selfChanges.trans hnews, (hkept hself).trans huser⟩
  | @found name x hop hvalid hself hstatus hnames htold =>
    by_cases hnew : c.self ≠ some x ∧ c.status = .connected
    · rw [if_pos hnew, hnews, List.append_assoc] at htold
      refine ⟨_, htold, ?_⟩
      rw [lastHeard_concat, hsame hself (hvalid hapt)]
    · rw [if_neg hnew, List.append_nil] at htold
      have hold := Decidable.not_not.mp fun hne => hnew ⟨hne, hstill⟩
      exact ⟨news, htold.trans hnews, (hkept (hself.trans hold.symm)).trans huser⟩
  | forgotten hquiet hgone hstatus =>
    rw [hgone] at hstill
    cases hstill

/-! ## Operations and runs -/

/-- A connection whose books are balanced, whose managers leave news of the local user to it, and
which tells them as it should. -/
structure Trusted (others : List Reference) (c : Connection σ ρ) : Prop where
  books : KeepsBooks others c
  reticent : AllManagers (Manager.Reticent c.names.path) c
  candid : c.Candid

namespace Trusted

theorem stage (h : Trusted others c) (hapt : op.Apt start) (hstage : Stage start op c c₁) :
    Trusted others c₁ ∧ ∀ before known, Followed before known c → Followed before known c₁ := by
  have hconcerns := hstage.concerns h.reticent
  have hbooks := h.books.stage hapt hstage
  refine ⟨⟨hbooks, ?_, h.candid.concerns hconcerns⟩, fun before known hfollowed =>
    hfollowed.concerns h.books.balanced hbooks.balanced hstage.evolves hapt hconcerns⟩
  rw [hconcerns.names]
  exact h.reticent.stage (Manager.reticent_lasting _) hstage

theorem step (h : Trusted others c) (hop : op.Careful c) {out : StepOutcome σ ρ}
    (hstep : c.step op = .ok out) :
    Trusted others out.2 ∧
      ∀ before known, Followed before known c → Followed before known out.2 :=
  (stages_step hstep).rel (R := fun c c₁ : Connection σ ρ => Trusted others c →
      Trusted others c₁ ∧ ∀ before known, Followed before known c → Followed before known c₁)
    (fun _ h => ⟨h, fun _ _ => id⟩)
    (fun h h' hc => ⟨(h' (h hc).1).1, fun before known hf =>
      (h' (h hc).1).2 before known ((h hc).2 before known hf)⟩)
    (fun hstage hc => hc.stage (h.books.apt hop) hstage) h

theorem run (h : Trusted others c) {ops : List (Operation σ ρ)} (hops : CarefulRun c ops)
    (hrun : c.run ops = .ok c₁) :
    Trusted others c₁ ∧ ∀ before known, Followed before known c → Followed before known c₁ :=
  hops.keeps
    (I := fun c' => Trusted others c' ∧
      ∀ before known, Followed before known c → Followed before known c')
    (fun hc hop hstep =>
      have hnext := hc.1.step hop hstep
      ⟨hnext.1, fun before known hf => hnext.2 before known (hc.2 before known hf)⟩)
    ⟨h, fun _ _ => id⟩ hrun

/-- The local user of a connected connection is known, and by a handle in use. -/
theorem hasValidSelf (h : Trusted others c) (hstatus : c.status = .connected) :
    c.hasValidSelf = true := by
  obtain ⟨x, hx⟩ := Option.isSome_iff_exists.mp (h.candid.known hstatus)
  rw [Connection.hasValidSelf, hx]
  exact h.books.balanced.isValid_self hx

end Trusted

/-- While an operation goes on, something is said of the local user only if it sets the
local user and a connected connection is on the way. -/
theorem Stages.selfChanges (h : Stages start op c c₁)
    (hm : AllManagers (Manager.Reticent c.names.path) c) :
    AllManagers (Manager.Reticent c₁.names.path) c₁ ∧ c.status.age ≤ c₁.status.age ∧
      (c₁.selfChanges = c.selfChanges ∨ (∃ name, op = .setSelf name) ∧
        c.status.age ≤ Status.connected.age ∧ Status.connected.age ≤ c₁.status.age) := by
  induction h with
  | refl => exact ⟨hm, Nat.le_refl _, .inl rfl⟩
  | tail _ hlast ih =>
    obtain ⟨hm', hage, hsaid⟩ := ih
    have hconcerns := hlast.concerns hm'
    refine ⟨?_, Nat.le_trans hage hconcerns.age, ?_⟩
    · rw [hconcerns.names]
      exact hm'.stage (Manager.reticent_lasting _) hlast
    · rcases hconcerns.news with hsame | ⟨hop, hbefore, hafter⟩
      · refine hsaid.imp hsame.trans fun ⟨hop, hbefore, hafter⟩ => ?_
        exact ⟨hop, hbefore, Nat.le_trans hafter hconcerns.age⟩
      · exact .inr ⟨hop, hbefore ▸ hage, Nat.le_of_eq (congrArg Status.age hafter.symm)⟩

/-- Only clients of a connected connection are told of the local user, and by an operation that
leaves it connected. -/
theorem connected_of_selfChanges (hm : AllManagers (Manager.Reticent c.names.path) c)
    {out : StepOutcome σ ρ} (hstep : c.step op = .ok out)
    (hnews : out.2.selfChanges ≠ c.selfChanges) :
    c.status = .connected ∧ out.2.status = .connected := by
  obtain ⟨-, -, hsame | ⟨⟨name, rfl⟩, hbefore, hafter⟩⟩ := (stages_step hstep).selfChanges hm
  · exact absurd hsame hnews
  · have hstays : c.Stays none out.2 :=
      stays_step (fun seat m hm => m.discreet_none) rfl hstep
    rw [hstays.status] at hafter ⊢
    have hconnected := Status.eq_of_age (Nat.le_antisymm hbefore hafter)
    exact ⟨hconnected, hconnected⟩

/-- Without a local user no connection gets to be connected. -/
theorem changeStatus_without_self (hself : c.hasValidSelf = false) (hstatus : c.status ≠ .connected)
    (reason : StatusReason) :
    c.changeStatus .connected reason =
      .ok (.error (if c.status = .disconnected then .terminal else .missingSelfHandle), c) := by
  have hcheck : c.checkChange .connected =
      .error (if c.status = .disconnected then .terminal else .missingSelfHandle) := by
    unfold checkChange
    cases hc : c.status with
    | new =>
      simp only [Status.route, hself]
      rfl
    | connecting =>
      simp only [Status.route, hself]
      rfl
    | connected => exact absurd hc hstatus
    | disconnected =>
      simp only [Status.route]
      rfl
  simp only [changeStatus, hcheck]
  rfl

/-! ## New connections -/

variable {backend : Backend} {config : Config} {tables : HandleTables}
  {plans : List (ManagerPlan σ ρ)}

theorem trusted_new (hcounts : tables.Counts others)
    (hplans : ∀ plan ∈ plans, plan.Careful (new backend config tables plans).names.path tables)
    (hreticent : ∀ b state, .custom b state ∈ plans →
      b.Reticent (new backend config tables plans).names.path) :
    Trusted others (new backend config tables plans) where
  books := keepsBooks_new backend config hcounts hplans
  reticent := .of_behaviours (fun b state hplan _ => hreticent b state hplan) fun _ _ _ => trivial
  candid := ⟨nofun, fun _ => rfl, nofun, neverTwice_nil⟩

/-- In every run in which references are taken only on handles in use, a connected connection knows
its local user by a handle in use, however often unused handles are reclaimed. It speaks of the
local user only while it is connected, and never of the same handle twice in a row; so whoever asks
for the local user while it is connected, and goes by what is said from then on, knows that handle
and its identifier as long as the connection is connected. Without a local user a connection does
not get to be connected: the change of status is refused for this reason, or, if the connection is
gone, for that, and changes nothing. -/
theorem clients_follow_localUser (hcounts : tables.Counts others)
    (hplans : ∀ plan ∈ plans, plan.Careful (new backend config tables plans).names.path tables)
    (hreticent : ∀ b state, .custom b state ∈ plans →
      b.Reticent (new backend config tables plans).names.path)
    {ops ops' : List (Operation σ ρ)} {c c' : Connection σ ρ}
    (hops : CarefulRun (new backend config tables plans) (ops ++ ops'))
    (hrun : (new backend config tables plans).run ops = .ok c) (hrun' : c.run ops' = .ok c') :
    (c'.status = .connected → c'.hasValidSelf = true) ∧
      (∀ op out, c'.step op = .ok out → out.2.selfChanges ≠ c'.selfChanges →
        c'.status = .connected ∧ out.2.status = .connected) ∧
      NeverTwice c'.selfChanges ∧
      (c.status = .connected → c'.status = .connected → ∃ news,
        c'.selfChanges = c.selfChanges ++ news ∧ c'.localUser = lastHeard c.localUser news) ∧
      ∀ reason, c'.hasValidSelf = false → c'.changeStatus .connected reason =
        .ok (.error (if c'.status = .disconnected then .terminal else .missingSelfHandle), c') := by
  obtain ⟨hfirst, hlast⟩ := hops.split hrun
  obtain ⟨htrusted, -⟩ := (trusted_new hcounts hplans hreticent).run hfirst hrun
  obtain ⟨htrusted', hfollow⟩ := htrusted.run hlast hrun'
  refine ⟨htrusted'.hasValidSelf, fun op out hstep hnews =>
    connected_of_selfChanges htrusted'.reticent hstep hnews, htrusted'.candid.never,
    fun hconnected hconnected' => ?_, fun reason hself => changeStatus_without_self hself ?_ reason⟩
  · have hread : Followed c.selfChanges c.localUser c :=
      ⟨Nat.le_of_eq (congrArg Status.age hconnected.symm), fun _ =>
        ⟨[], (List.append_nil _).symm, rfl⟩⟩
    exact (hfollow _ _ hread).told hconnected'
  · intro hstatus
    rw [htrusted'.hasValidSelf hstatus] at hself
    cases hself

theorem careful_scripted : ScriptedManager.behaviour.Careful :=
  ⟨fun _ _ _ h => absurd h List.not_mem_nil, fun _ _ _ h => absurd h List.not_mem_nil⟩

theorem reticent_scripted (path : ObjectPath) : ScriptedManager.behaviour.Reticent path := by
  refine ⟨fun state r e he h id hforged => ?_, fun state status => by
    simp [ScriptedManager.behaviour]⟩
  obtain ⟨report, hreport⟩ := report_of_scripted he
  cases hforged.symm.trans hreport

theorem careful_listAndScript (path : ObjectPath) (tables : HandleTables) :
    ∀ plan ∈ listAndScript, plan.Careful path tables := by
  intro plan hplan
  obtain rfl | rfl : plan = .contacts _ _ ∨ plan = .custom _ _ := by
    simpa [listAndScript] using hplan
  · exact ⟨MemoryRoster.careful_server _ _ _, fun h hh => absurd hh List.not_mem_nil⟩
  · exact ⟨careful_scripted, fun r hr => absurd hr List.not_mem_nil⟩

theorem reticent_listAndScript (path : ObjectPath) (b : Behaviour ScriptedManager)
    (state : ObjectPath → ScriptedManager) (h : .custom b state ∈ listAndScript) :
    b.Reticent path := by
  obtain ⟨rfl, -⟩ : b = ScriptedManager.behaviour ∧ _ := by simpa [listAndScript] using h
  exact reticent_scripted path

/-- The connection gets to be connected, and somebody keeps a contact. -/
def gettingConnected : List (Operation ScriptedManager MemoryRoster) :=
  [.setSelf (.id "user"), .changeStatus .connected .requested,
    .intern .contact "alice" (some "mine"), .contacts 0 .received]

/-- The contact turns out to be the local user; then nobody else keeps it. -/
def changingUser : List (Operation ScriptedManager MemoryRoster) :=
  [.setSelf (.id "alice"), .drop "mine", .collect, .setSelf (.id "alice")]

/-- A client that asked when the connection had become connected hears of the change. -/
theorem clients_follow_alice :
    ∃ c c', listening.run gettingConnected = .ok c ∧ c.run changingUser = .ok c' ∧
      c'.hasValidSelf = true ∧ NeverTwice c'.selfChanges ∧
      ∃ news, c'.selfChanges = c.selfChanges ++ news ∧
        c'.localUser = lastHeard c.localUser news ∧ news.map Prod.snd = ["alice"] := by
  have heval : ((listening.run gettingConnected).toOption.any fun c => c.status = .connected &&
      c.selfChanges = [] && (c.run changingUser).toOption.any fun c' =>
        c'.status = .connected && c'.selfChanges.map Prod.snd = ["alice"]) = true := by
    decide +kernel
  obtain ⟨c, hrun, hc⟩ := Except.eq_ok_of_any heval
  rw [Bool.and_eq_true, Bool.and_eq_true, decide_eq_true_iff, decide_eq_true_iff] at hc
  obtain ⟨⟨hconnected, hnothing⟩, hrest⟩ := hc
  obtain ⟨c', hrun', hc'⟩ := Except.eq_ok_of_any hrest
  rw [Bool.and_eq_true, decide_eq_true_iff, decide_eq_true_iff] at hc'
  have hfresh : HandleTables.Fresh
      ⟨.onDemand .contact, none, some (.onDemand .list), some (.onDemand .group)⟩ := by
    intro e t ht
    cases e <;> cases ht <;> exact .withNormaliser _ _
  have hops : CarefulRun listening (gettingConnected ++ changingUser) := by
    refine Throughout.of_forall fun op hop c => ?_
    simp only [gettingConnected, changingUser, List.cons_append, List.nil_append, List.mem_cons,
      List.not_mem_nil, or_false] at hop
    rcases hop with rfl | rfl | rfl | rfl | rfl | rfl | rfl | rfl <;> trivial
  obtain ⟨hvalid, -, hnever, hfollow, -⟩ := clients_follow_localUser hfresh.counts
    (careful_listAndScript _ _) (reticent_listAndScript _) hops hrun hrun'
  obtain ⟨news, hnews, huser⟩ := hfollow hconnected hc'.1
  refine ⟨c, c', hrun, hrun', hvalid hc'.1, hnever, news, hnews, huser, ?_⟩
  rw [hnothing, List.nil_append] at hnews
  rw [← hnews]
  exact hc'.2

/-- A connection that is gone before it knew its local user is refused for being gone. -/
theorem gone_refused_as_gone :
    ∃ c, listening.run [.disconnect ⟨1⟩] = .ok c ∧ c.hasValidSelf = false ∧
      c.changeStatus .connected .requested ≠ .ok (.error .missingSelfHandle, c) := by
  have heval : ((listening.run [.disconnect ⟨1⟩]).toOption.any fun c =>
      c.hasValidSelf = false && c.status = .disconnected) = true := by
    decide +kernel
  obtain ⟨c, hrun, hc⟩ := Except.eq_ok_of_any heval
  rw [Bool.and_eq_true, decide_eq_true_iff, decide_eq_true_iff] at hc
  refine ⟨c, hrun, hc.1, fun h => ?_⟩
  rw [changeStatus_without_self hc.1 (by rw [hc.2]; decide), if_pos hc.2] at h
  cases h

end Connection

end Telepathy
