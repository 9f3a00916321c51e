import Telepathy.Proofs.Connection.Attention
import Telepathy.Proofs.Connection.Staying

set_option autoImplicit false

/-!
# The attention of a connection

What a connection does about interests is a part of it, its `attention`. The calls by which clients
declare, withdraw or vanish move it as they should. The end of the connection makes it forget, and
every other operation is nothing to it, whatever managers do meanwhile: `attends_step` says so, and
is all that a run has to know.
-/

namespace Telepathy

variable {σ ρ : Type}

/-- The call on interests that an operation is, if it is one. -/
def Operation.interest? : Operation σ ρ → Option InterestOperation
  | .addInterest client tokens => some (.add client tokens)
  | .removeInterest client tokens => some (.remove client tokens)
  | .clientVanished client => some (.vanish client)
  | _ => none

namespace Connection

variable {c c₁ : Connection σ ρ} {op : Operation σ ρ}

/-- What a connection does about interests. -/
def attention (c : Connection σ ρ) : Attention :=
  ⟨c.interests, c.bus.watched, c.log.filter Event.isNotice⟩

/-- Events of another kind are nothing to it. -/
theorem attention_record (c : Connection σ ρ) {events : List Event}
    (h : ∀ e ∈ events, e.isNotice = false) : (c.record events).attention = c.attention := by
  have hnone : events.filter Event.isNotice = [] :=
    List.filter_eq_nil_iff.mpr fun e he => by simp [h e he]
  rw [attention, record, List.filter_append, hnone, List.append_nil]
  rfl

/-- Those of this kind are noted. -/
theorem attention_recordNotices (c : Connection σ ρ) {events : List Event}
    (h : ∀ e ∈ events, e.isNotice = true) :
    (c.record events).attention =
      { c.attention with notices := c.attention.notices ++ events } := by
  rw [attention, record, List.filter_append, List.filter_eq_self.mpr h]
  rfl

/-! ### Managers -/

theorem attention_settle {r : Report} (h : c.settle r = .ok c₁) :
    c₁.attention = c.attention := by
  obtain ⟨s, hs, rfl⟩ := settle_cases h
  refine attention_record _ fun e he => ?_
  rcases RequestLedger.mem_settle_events hs he with ⟨path, signal, rfl, -⟩ | ⟨call, a, rfl, -⟩ <;>
    rfl

theorem attention_perform {seat : Nat} {e : Effect} (h : c.perform seat e = .ok c₁) :
    c₁.attention = c.attention := by
  cases e with
  | report r => exact attention_settle (Except.mapError_eq_ok.mp h)
  | signal path s =>
    cases h
    exact attention_record c (by simp [Event.isNotice])
  | called call =>
    cases h
    exact attention_record c (by simp [Event.isNotice])

theorem attention_takeTurn {seat : Nat} {t : Turn σ ρ} (h : c.takeTurn seat t = .ok c₁) :
    c₁.attention = c.attention := by
  have hperformed := List.foldlM_rel
    (R := fun c c₁ : Connection σ ρ => c₁.attention = c.attention) (fun _ => rfl)
    (fun h h' => h'.trans h) attention_perform h
  exact hperformed

theorem attention_offerTo {r : ChannelRequest} {seats : List Nat} {o : Offer}
    (h : c.offerTo r seats = .ok (o, c₁)) : c₁.attention = c.attention := by
  have hone : ∀ {c c₁ : Connection σ ρ} {seat : Nat} {o : Offer},
      c.offerAt r seat = .ok (o, c₁) → c₁.attention = c.attention := by
    intro c c₁ seat o h
    unfold offerAt at h
    split at h
    · cases h
      rfl
    · obtain ⟨c', hturn, heq⟩ := Except.map_eq_ok.mp h
      cases heq
      exact (attention_takeTurn hturn).trans (attention_record c (by simp [Event.isNotice]))
  induction seats generalizing c with
  | nil =>
    cases h
    rfl
  | cons seat seats ih =>
    obtain ⟨⟨o', c'⟩, hoffer, h⟩ := Except.bind_eq_ok.mp h
    cases o' with
    | accepted =>
      cases h
      exact hone hoffer
    | declined => exact (ih h).trans (hone hoffer)

theorem attention_notifyAll {status : Status} {seats : List Nat}
    (h : seats.foldlM (notifyAt status) c = .ok c₁) : c₁.attention = c.attention := by
  refine List.foldlM_rel (R := fun c c₁ : Connection σ ρ => c₁.attention = c.attention)
    (fun _ => rfl) (fun h h' => h'.trans h) (fun {c seat c₁} h => ?_) h
  unfold notifyAt at h
  split at h
  · cases h
    rfl
  · exact (attention_takeTurn h).trans (attention_record c (by simp [Event.isNotice]))

/-! ### Requests -/

theorem attention_answer (c : Connection σ ρ) (call : CallId) (a : CallAnswer) :
    (c.answer call a).attention = c.attention :=
  attention_record c (by simp [Event.isNotice])

theorem attention_failLookup (c : Connection σ ρ) (ticket : LookupTicket) (e : Error) :
    (c.failLookup ticket e).2.attention = c.attention := by
  unfold failLookup
  split
  · rfl
  · exact attention_answer _ _ _

theorem attention_beginLookup (c : Connection σ ρ) (call : CallId) (r : ValidRequest)
    (entity : EntityType) (id : String) :
    (c.beginLookup call r entity id).attention = c.attention := by
  have hparked : ({ c with ledger := c.ledger.park ⟨call, r⟩ }.record
      [.lookup c.ledger.nextTicket entity id]).attention = c.attention :=
    attention_record { c with ledger := c.ledger.park ⟨call, r⟩ } (by simp [Event.isNotice])
  unfold beginLookup
  dsimp only
  split
  · exact hparked
  · exact (attention_failLookup _ _ _).trans hparked

theorem attention_present {call : CallId} {r : ValidRequest} {target : Option Handle}
    (h : c.present call r target = .ok c₁) : c₁.attention = c.attention := by
  obtain ⟨⟨o, c'⟩, hoffer, h⟩ := Except.bind_eq_ok.mp h
  have hoffered := attention_offerTo hoffer
  cases o with
  | accepted =>
    cases h
    exact hoffered
  | declined =>
    cases h
    refine Eq.trans ?_ hoffered
    unfold refuse
    split
    · rfl
    · exact attention_answer _ _ _

theorem attention_request {call : CallId} {method : RequestMethod} {properties : PropertyMap}
    (h : c.request call method properties = .ok c₁) : c₁.attention = c.attention := by
  unfold request at h
  split at h
  · split at h
    · unfold submit at h
      split at h
      case h_1 target tables _ => exact attention_present (c := { c with tables }) h
      · cases h
        exact attention_beginLookup c _ _ _ _
      · cases h
        exact attention_answer c _ _
    · cases h
      exact attention_answer c _ _
  · cases h
    exact attention_answer c _ _

theorem attention_completeLookup {ticket : LookupTicket} {entity : EntityType} {name : ContactName}
    {out : StepOutcome σ ρ} (h : c.completeLookup ticket entity name = .ok out) :
    out.2.attention = c.attention := by
  unfold completeLookup at h
  split at h
  · cases h
    rfl
  · dsimp only at h
    split at h
    · cases h
      rfl
    · obtain ⟨⟨outcome, c'⟩, hresume, heq⟩ := Except.map_eq_ok.mp h
      cases heq
      unfold resumeLookup at hresume
      split at hresume
      · cases hresume
        rfl
      · obtain ⟨c'', hpresent, heq⟩ := Except.bind_eq_ok.mp hresume
        cases heq
        have hpresented := attention_present hpresent
        exact hpresented

/-! ### On the bus, and in the handle tables -/

/-- Of the bus only who is watched counts. -/
theorem attention_bus {bus : Bus} (h : bus.watched = c.bus.watched) (registered : Bool)
    {events : List Event} (hevents : ∀ e ∈ events, e.isNotice = false) :
    ({ c with bus, registered }.record events).attention = c.attention := by
  rw [attention_record _ hevents, attention, h]
  rfl

theorem attention_register (c : Connection σ ρ) : c.register.2.attention = c.attention := by
  have hnamed : (c.record [.nameClaimed c.names.busName true]).attention = c.attention :=
    attention_record c (by simp [Event.isNotice])
  unfold register
  split
  · rfl
  · split
    · exact attention_record c (by simp [Event.isNotice])
    case h_2 bus hname =>
      have hwatched := Bus.watched_claimName hname
      dsimp only
      split
      · exact (attention_bus (c := c.record [.nameClaimed c.names.busName true]) hwatched
          c.registered (by simp [Event.isNotice])).trans hnamed
      case h_2 hexport =>
        have hwatched' := (Bus.watched_exportObject hexport).trans hwatched
        exact (attention_bus (c := c.record [.nameClaimed c.names.busName true]) hwatched' true
          (by simp [Event.isNotice])).trans hnamed

theorem attention_loseName (c : Connection σ ρ) : c.loseName.2.attention = c.attention := by
  unfold loseName
  split
  · exact attention_record c (by simp [Event.isNotice])
  case h_2 bus hname =>
    exact attention_bus (Bus.watched_claimName hname) c.registered (by simp [Event.isNotice])

theorem attention_losePath (c : Connection σ ρ) : c.losePath.2.attention = c.attention := by
  unfold losePath
  split
  · exact attention_record c (by simp [Event.isNotice])
  case h_2 bus hexport =>
    exact attention_bus (Bus.watched_exportObject hexport) c.registered (by simp [Event.isNotice])

theorem attention_nameSelf (c : Connection σ ρ) (name : ContactName) :
    (c.nameSelf name).2.attention = c.attention := by
  have hset : ∀ (c : Connection σ ρ) (h : Handle), (c.setSelf h).attention = c.attention := by
    intro c h
    unfold setSelf
    split
    · rfl
    · dsimp only
      split
      · exact attention_record { c with
          self := some h
          tables := c.tables.exchangeContacts [h] c.self.toList } (by simp [Event.isNotice])
      · rfl
  have hresolved : (c.resolveContact name).2.attention = c.attention := rfl
  unfold nameSelf
  generalize c.resolveContact name = resolved at hresolved
  obtain ⟨found, c'⟩ := resolved
  cases found with
  | error e => exact hresolved
  | ok h => exact (hset c' h).trans hresolved

theorem attention_internKept (c : Connection σ ρ) (entity : EntityType) (id : String)
    (keep : Option String) : (c.internKept entity id keep).2.attention = c.attention := by
  unfold internKept
  split
  · rfl
  · split <;> rfl

/-! ### By the managers' own doing -/

theorem attention_changeManager {seat : Nat} {f : σ → σ} {out : StepOutcome σ ρ}
    (h : c.changeManager seat f = .ok out) : out.2.attention = c.attention := by
  unfold changeManager at h
  split at h
  · cases h
    rfl
  · obtain ⟨c', htaken, heq⟩ := Except.map_eq_ok.mp h
    cases heq
    exact attention_takeTurn htaken

theorem attention_changeServer {seat : Nat} {names : List ContactName}
    {f : SortedSet Handle → ρ → ρ} {out : StepOutcome σ ρ}
    (h : c.changeServer seat names f = .ok out) : out.2.attention = c.attention := by
  unfold changeServer at h
  split at h
  · cases h
    rfl
  · dsimp only at h
    split at h
    · cases h
      rfl
    · split at h
      · cases h
        rfl
      · obtain ⟨c', htaken, heq⟩ := Except.map_eq_ok.mp h
        cases heq
        have hsame := attention_takeTurn htaken
        exact hsame

theorem attention_performContacts {seat : Nat} {named : ContactOperation (List ContactName)}
    {out : StepOutcome σ ρ} (h : c.performContacts seat named = .ok out) :
    out.2.attention = c.attention := by
  unfold performContacts at h
  split at h
  · cases h
    rfl
  · dsimp only at h
    split at h
    · cases h
      rfl
    · split at h
      · cases h
        rfl
      · obtain ⟨c', htaken, heq⟩ := Except.map_eq_ok.mp h
        cases heq
        have hsame := attention_takeTurn htaken
        exact hsame

/-! ### The life of the connection -/

theorem attention_finishShutdown (c : Connection σ ρ) :
    c.finishShutdown.attention = c.attention := by
  have hleft : ∀ c : Connection σ ρ, c.withdraw.attention = c.attention := by
    intro c
    unfold withdraw
    split
    · have hbus : ((c.bus.withdrawObject c.names.path).releaseName c.names.busName).watched =
          c.bus.watched := rfl
      exact attention_bus hbus false (by simp [Event.isNotice])
    · rfl
  have hanswered : ∀ c : Connection σ ρ, c.answerDisconnects.attention = c.attention := by
    refine fun c => attention_record { c with disconnectCalls := [] } fun e he => ?_
    obtain ⟨call, -, rfl⟩ := List.mem_map.mp he
    rfl
  unfold finishShutdown
  split
  · exact (hanswered _).trans (hleft { c with shutDown := true })
  · rfl

theorem attention_forgetInterests (c : Connection σ ρ) :
    c.forgetInterests.attention = c.attention.forget := by
  have hnotices : ∀ e ∈ c.interests.clear.2.map Event.unwatched, e.isNotice = true := by
    intro e he
    obtain ⟨client, -, rfl⟩ := List.mem_map.mp he
    rfl
  have hwatched := Bus.watched_unwatchAll c.interests.clear.2 c.bus
  unfold forgetInterests
  dsimp only
  rw [attention_recordNotices _ hnotices, attention, hwatched]
  rfl

theorem attention_tearDown (c : Connection σ ρ) : c.tearDown.attention = c.attention.forget := by
  have hfailed : c.failOutstanding.forgetSelf.attention = c.attention := by
    refine attention_record { c with
      ledger := c.ledger.clear
      tables := c.tables.releaseAll c.ledger.holds } fun e he => ?_
    obtain ⟨call, -, rfl⟩ := List.mem_map.mp he
    rfl
  have hshut : ∀ c : Connection σ ρ, c.shutDownBackend.attention = c.attention := by
    intro c
    have hhook : (c.record [.hook .shutDown]).attention = c.attention :=
      attention_record c (by simp [Event.isNotice])
    unfold shutDownBackend
    dsimp only
    split
    · exact hhook
    · exact (attention_finishShutdown _).trans hhook
  rw [tearDown, hshut, attention_forgetInterests, hfailed]

theorem attention_enter {status : Status} {reason : StatusReason}
    (h : c.enter status reason = .ok c₁) :
    c₁.attention = if status = .disconnected then c.attention.forget else c.attention := by
  obtain ⟨told, htold, h⟩ := Except.bind_eq_ok.mp h
  cases h
  have htold : told.attention = c.attention := by
    refine (attention_notifyAll htold).trans (Eq.trans (attention_record _ fun e he => ?_)
      (attention_record { c with status } (by simp [Event.isNotice])))
    obtain ⟨k, hk, rfl⟩ := List.mem_map.mp he
    -- The hooks for a status are none of those for interests.
    unfold hookFor at hk
    split at hk <;> simp at hk <;> subst hk <;> rfl
  split
  · rw [attention_tearDown, htold]
  · exact htold

/-! ## Operations -/

/-- What an operation comes to for the attention of a connection. -/
inductive Attends (op : Operation σ ρ) (c c' : Connection σ ρ) : Prop
  /-- It is nothing to it. -/
  | aloof (hop : op.interest? = none)
      (hstatus : c'.status = .disconnected ↔ c.status = .disconnected)
      (h : c'.attention = c.attention)
  /-- It ends the connection. -/
  | ends (hop : op.interest? = none) (hlive : c.status ≠ .disconnected)
      (hgone : c'.status = .disconnected) (h : c'.attention = c.attention.forget)
  /-- A client declares, withdraws or vanishes. -/
  | heeds {i : InterestOperation} (hop : op.interest? = some i) (hstatus : c'.status = c.status)
      (h : c'.attention = c.attention.perform i)
      (hadd : c.status = .disconnected → ∀ client tokens, i ≠ .add client tokens)
  /-- A client declares in vain. -/
  | refused {client : ClientName} {tokens : List String}
      (hop : op.interest? = some (.add client tokens)) (hgone : c.status = .disconnected)
      (h : c' = c)

namespace Attends

theorem of_eq (hop : op.interest? = none) (h : c₁ = c) : Attends op c c₁ :=
  .aloof hop (by rw [h]) (by rw [h])

/-- To enter a status is nothing to it, unless it is the end. -/
theorem of_enter (hop : op.interest? = none) (hlive : c.status ≠ .disconnected) {status : Status}
    {reason : StatusReason} (h : c.enter status reason = .ok c₁) : Attends op c c₁ := by
  have hstatus := status_entered h
  have hattention := attention_enter h
  by_cases hgone : status = .disconnected
  · rw [if_pos hgone] at hattention
    exact .ends hop hlive (hstatus.trans hgone) hattention
  · rw [if_neg hgone] at hattention
    exact .aloof hop (iff_of_false (hstatus ▸ hgone) hlive) hattention

theorem of_changeStatus (hop : op.interest? = none) {status : Status} {reason : StatusReason}
    {outcome : Except TransitionError Unit}
    (h : c.changeStatus status reason = .ok (outcome, c₁)) : Attends op c c₁ := by
  rcases changeStatus_cases h with rfl | ⟨hroute, henter⟩ | ⟨hnew, rfl, c', hfirst, hsecond⟩
  · exact .of_eq hop rfl
  · exact .of_enter hop (Status.ne_disconnected_of_route hroute) henter
  · -- Neither of the two statuses is the end.
    have hattention := (attention_enter hsecond).trans (attention_enter hfirst)
    refine .aloof hop (iff_of_false ?_ ?_) hattention
    · rw [status_entered hsecond]
      decide
    · rw [hnew]
      decide

/-- What comes before an end that is nothing to it. -/
theorem of_attention {c' : Connection σ ρ} (h : Attends op c' c₁) (hstatus : c'.status = c.status)
    (hattention : c'.attention = c.attention) (hop : op.interest? = none) : Attends op c c₁ := by
  cases h with
  | aloof _ hstatus' h => exact .aloof hop (hstatus ▸ hstatus') (h.trans hattention)
  | ends _ hlive hgone h => exact .ends hop (hstatus ▸ hlive) hgone (hattention ▸ h)
  | heeds hop' =>
    rw [hop] at hop'
    cases hop'
  | refused hop' =>
    rw [hop] at hop'
    cases hop'

end Attends

theorem attention_applyInterest (c : Connection σ ρ) (client : ClientName)
    (change : InterestTable × InterestUpdate) :
    (c.applyInterest client change).attention = c.attention.apply client change := by
  have hhooks : ∀ e ∈ change.2.transitions.map fun t => Event.hook (interestHook t),
      e.isNotice = true := by
    intro e he
    obtain ⟨t, -, rfl⟩ := List.mem_map.mp he
    cases t <;> rfl
  have hwatch : ({ c with interests := change.1 }.watchAs client change.2.watch).attention =
      { c.attention with interests := change.1 }.watchAs client change.2.watch := by
    cases change.2.watch with
    | keep => rfl
    | start =>
      exact attention_recordNotices
        { c with interests := change.1, bus := c.bus.watch client } (by simp [Event.isNotice])
    | stop =>
      exact attention_recordNotices
        { c with interests := change.1, bus := c.bus.unwatch client } (by simp [Event.isNotice])
  rw [applyInterest, attention_recordNotices _ hhooks, hwatch]
  rfl

/-- A call on interests moves the connection's attention, and nothing of its life. -/
theorem Attends.of_applyInterest {i : InterestOperation} (hop : op.interest? = some i)
    {client : ClientName} {change : InterestTable × InterestUpdate}
    (hchange : c.attention.apply client change = c.attention.perform i)
    (hadd : c.status = .disconnected → ∀ client tokens, i ≠ .add client tokens) :
    Attends op c (c.applyInterest client change) := by
  refine .heeds hop ?_ ((attention_applyInterest c client change).trans hchange) hadd
  unfold applyInterest watchAs
  cases change.2.watch <;> rfl

/-- Every operation is one of these to the attention of a connection. -/
theorem attends_step {out : StepOutcome σ ρ} (h : c.step op = .ok out) : Attends op c out.2 := by
  have haloof : op.isVital = false → op.interest? = none → out.2.attention = c.attention →
      Attends op c out.2 := fun hvital hop hattention =>
    .aloof hop (by rw [(stays_step (allManagers_discreet_none c) hvital h).status]) hattention
  cases op with
  | connect =>
    obtain ⟨⟨outcome, c'⟩, hconnect, rfl⟩ := Except.map_eq_ok.mp h
    rcases connect_cases hconnect with ⟨-, rfl⟩ | ⟨-, changed, hchange⟩
    · exact .of_eq rfl rfl
    · have hstarted : (c.record [.hook .startConnecting]).attention = c.attention :=
        attention_record c (by simp [Event.isNotice])
      have hchanged : Attends .connect (c.record [.hook .startConnecting]) c' :=
        .of_changeStatus rfl hchange
      exact hchanged.of_attention rfl hstarted rfl
  | disconnect call =>
    obtain ⟨c', hdisconnect, rfl⟩ := Except.map_eq_ok.mp h
    rcases disconnect_cases hdisconnect with ⟨-, rfl⟩ | ⟨-, -, rfl⟩ | ⟨-, -, changed, hchange⟩
    · exact .aloof rfl .rfl (attention_answer c _ _)
    · exact .aloof rfl .rfl rfl
    · have hchanged : Attends (.disconnect call)
          { c with disconnectCalls := c.disconnectCalls ++ [call] } c' :=
        .of_changeStatus rfl hchange
      exact hchanged.of_attention rfl rfl rfl
  | finishShutdown =>
    cases h
    exact .aloof rfl (by rw [quietly, status_finishShutdown]) (attention_finishShutdown c)
  | changeStatus status reason =>
    obtain ⟨⟨outcome, c'⟩, hchange, rfl⟩ := Except.map_eq_ok.mp h
    exact .of_changeStatus rfl hchange
  | addInterest client tokens =>
    cases h
    by_cases hgone : c.status = .disconnected
    · exact .refused rfl hgone (by rw [following, addInterest, if_pos hgone])
    · rw [following, addInterest, if_neg hgone]
      exact .of_applyInterest rfl rfl fun hs => absurd hs hgone
  | removeInterest client tokens =>
    cases h
    exact .of_applyInterest rfl rfl fun _ => by simp
  | clientVanished client =>
    cases h
    exact .of_applyInterest rfl rfl fun _ => by simp
  | register =>
    cases h
    exact haloof rfl rfl (attention_register c)
  | setSelf contact =>
    cases h
    exact haloof rfl rfl (attention_nameSelf c contact)
  | request call method properties =>
    obtain ⟨c', hrequest, rfl⟩ := Except.map_eq_ok.mp h
    exact haloof rfl rfl (attention_request hrequest)
  | lookupFound ticket entity target => exact haloof rfl rfl (attention_completeLookup h)
  | lookupFailed ticket e =>
    cases h
    exact haloof rfl rfl (attention_failLookup c ticket e)
  | cancelLookup ticket =>
    cases h
    exact haloof rfl rfl (attention_failLookup c ticket _)
  | intern entity id keep =>
    cases h
    exact haloof rfl rfl (attention_internKept c entity id keep)
  | drop name =>
    cases h
    exact haloof rfl rfl rfl
  | collect =>
    cases h
    exact haloof rfl rfl rfl
  | report r =>
    obtain ⟨c', hsettle, rfl⟩ := Except.map_eq_ok.mp h
    exact haloof rfl rfl (attention_settle hsettle)
  | loseName =>
    cases h
    exact haloof rfl rfl (attention_loseName c)
  | losePath =>
    cases h
    exact haloof rfl rfl (attention_losePath c)
  | changeManager seat f => exact haloof rfl rfl (attention_changeManager h)
  | changeServer seat names f => exact haloof rfl rfl (attention_changeServer h)
  | contacts seat named => exact haloof rfl rfl (attention_performContacts h)

end Connection

end Telepathy
