import Telepathy.Proofs.ContactList.Gate

set_option autoImplicit false

/-!
# What comes of a request, whatever the state

A contact list checks a request in a fixed order, and the first check that fails decides. Only after
the last check is a channel opened or the server asked, so a request that fails a check leaves
nothing behind but the report that it failed. A request that passes is answered by the channel of
its target, joins the queue of that channel, or has the server create a group.
-/

namespace Telepathy

/-- A request is for a list or a group of contacts, whichever `e` says. -/
def ChannelRequest.Seeks (r : ChannelRequest) (e : EntityType) : Prop :=
  r.channelType = Property.contactListType ∧ r.entity = e

instance (r : ChannelRequest) (e : EntityType) : Decidable (r.Seeks e) :=
  inferInstanceAs (Decidable (_ ∧ _))

namespace ContactList

/-- Requests are served, or can wait. -/
def Serves (l : ContactList) : Prop :=
  l.roster = .received ∨ l.roster = .pending ∧ l.queuedRequests < l.queueLimit

/-- A request that can come to the check of the roster: it names a list that the protocol has and
does not ask for a new one, or it names a group. -/
inductive Considers {σ : Type} (server : ContactServer σ) (l : ContactList) (r : ChannelRequest) :
    Prop
  | list {k : ListKind} (hr : r.Seeks .list)
      (hname : ListKind.ofName? (r.targetId.getD "") = some k)
      (hsupported : k.isSupported l.capabilities = true) (hmethod : r.method ≠ .create)
  | group {name : String} (hr : r.Seeks .group) (hgroups : l.capabilities.groups.isSupported = true)
      (hname : server.normaliseGroup (r.targetId.getD "") = some name)

theorem put_put (l : ContactList) (t : ContactTarget) (c c' : ContactChannel) :
    (l.put t c).put t c' = l.put t c' := by
  have hchannels : (l.channels.insert t c).insert t c' = l.channels.insert t c' := by
    refine SortedMap.ext_get? fun t' => ?_
    simp only [SortedMap.get?_insert]
    split <;> rfl
  simp only [put, hchannels]

theorem checkServable_of_serves {l : ContactList} (h : l.Serves) : l.checkServable = .ok () := by
  unfold checkServable
  rcases h with hreceived | ⟨hpending, hroom⟩
  · rw [hreceived]
  · simp only [hpending, if_neg (Nat.not_le.mpr hroom)]

end ContactList

namespace ContactScene

variable {σ : Type}

/-! ## The outcomes -/

/-- A request fails with an error of which `p` holds, and nothing else comes of it. -/
def Fails (s : ContactScene σ) (r : ChannelRequest) (p : Error → Prop)
    (out : Offer × ContactScene σ) : Prop :=
  ∃ e, p e ∧ out = (.accepted, s.fail [r.token] e)

/-- What the state of the roster decides by itself. -/
structure HeedsRoster (s : ContactScene σ) (r : ChannelRequest) (out : Offer × ContactScene σ) :
    Prop where
  failed : ∀ e, s.list.roster = .failed e → s.Fails r (· = e) out
  gone : s.list.roster = .disconnected → s.Fails r (·.kind = .disconnected) out
  full : s.list.roster = .pending → s.list.queueLimit ≤ s.list.queuedRequests →
    s.Fails r (·.kind = .notAvailable) out

/-- A request joins the queue of a channel, which is opened if it does not exist. -/
structure Waits (s : ContactScene σ) (r : ChannelRequest) (t : ContactTarget) (requested : Bool)
    (out : Offer × ContactScene σ) : Prop where
  joins : ∀ c, s.list.channels.get? t = some c →
    out = (.accepted, { s with list := s.list.put t (c.queue r.token) })
  opens : s.list.channels.get? t = none → ∃ opened, s.tables.ensure t.entity t.name = .ok opened ∧
    out = (.accepted, { s with
      tables := opened.2.retain ⟨t.entity, opened.1⟩
      list := s.list.put t ((s.list.freshChannel t opened.1 requested).queue r.token) })

/-- The channel of a target answers a request: at once if clients know of it, and otherwise when
they are told. -/
structure Answered (s : ContactScene σ) (r : ChannelRequest) (t : ContactTarget) (requested : Bool)
    (out : Offer × ContactScene σ) : Prop where
  known : ∀ c, s.list.channels.get? t = some c → c.announced = true →
    out = (.accepted, s.emit (.report (.alreadySatisfied r.token (c.details t))))
  unknown : (∀ c, s.list.channels.get? t = some c → c.announced = false) →
    s.Waits r t requested out

/-- The server is asked once for a group, and if it agrees the new channel of the group is announced
as the one that was requested. -/
structure Creates (server : ContactServer σ) (s : ContactScene σ) (r : ChannelRequest)
    (name : String) (out : Offer × ContactScene σ) : Prop where
  asked : s.AsksOnce out.2 (.createGroups [name])
  denied : ∀ e s', s.call server (.createGroups [name]) = (some e, s') →
    out = (.accepted, s'.fail [r.token] e)
  granted : ∀ s', s.call server (.createGroups [name]) = (none, s') →
    ∃ opened, s'.tables.ensure .group name = .ok opened ∧
      let c := s.list.freshChannel (.group name) opened.1 true
      out = (.accepted, { s' with
        tables := opened.2.retain ⟨.group, opened.1⟩
        list := s.list.put (.group name) c.announce
        effects := s'.effects ++
          [.report (.newChannels [(c.details (.group name), [r.token])])] })

/-- What comes of a request for a list that there is. -/
structure ServesList (s : ContactScene σ) (r : ChannelRequest) (k : ListKind)
    (out : Offer × ContactScene σ) : Prop where
  unsupported : k.isSupported s.list.capabilities = false → s.Fails r (·.kind = .notImplemented) out
  new : k.isSupported s.list.capabilities = true → r.method = .create →
    s.Fails r (·.kind = .notAvailable) out
  roster : k.isSupported s.list.capabilities = true → r.method ≠ .create → s.HeedsRoster r out
  answered : k.isSupported s.list.capabilities = true → r.method ≠ .create → s.list.Serves →
    s.Answered r (.list k) false out

/-- What comes of a request for a group that there may be. -/
structure ServesGroup (server : ContactServer σ) (s : ContactScene σ) (r : ChannelRequest)
    (name : String) (out : Offer × ContactScene σ) : Prop where
  roster : s.HeedsRoster r out
  taken : s.list.Serves → s.list.HasChannel (.group name) → r.method = .create →
    s.Fails r (·.kind = .notAvailable) out
  answered : s.list.Serves → s.list.HasChannel (.group name) → r.method ≠ .create →
    s.Answered r (.group name) true out
  early : s.list.roster = .pending → s.list.queuedRequests < s.list.queueLimit →
    ¬ s.list.HasChannel (.group name) → s.Waits r (.group name) true out
  fixed : s.list.roster = .received → ¬ s.list.HasChannel (.group name) →
    s.list.capabilities.groups.isEditable = false → s.Fails r (·.kind = .notAvailable) out
  creates : s.list.roster = .received → ¬ s.list.HasChannel (.group name) →
    s.list.capabilities.groups.isEditable = true → s.Creates server r name out

/-- There is a channel for a target, or its table gives a handle for one. -/
def CanOpen (s : ContactScene σ) (t : ContactTarget) : Prop :=
  s.list.HasChannel t ∨ s.tables.Gives t.entity t.name

/-- What comes of a request, check by check. -/
structure Handles (server : ContactServer σ) (s : ContactScene σ) (r : ChannelRequest)
    (out : Offer × ContactScene σ) : Prop where
  declines : out.1 = .declined ↔ ¬ r.Seeks .list ∧ ¬ r.Seeks .group
  untouched : out.1 = .declined → out.2 = s
  unknownList : r.Seeks .list → ListKind.ofName? (r.targetId.getD "") = none →
    s.Fails r (·.kind = .invalidHandle) out
  list : r.Seeks .list → ∀ k, ListKind.ofName? (r.targetId.getD "") = some k →
    s.CanOpen (.list k) → s.ServesList r k out
  noGroups : r.Seeks .group → s.list.capabilities.groups.isSupported = false →
    s.Fails r (·.kind = .notImplemented) out
  badGroup : r.Seeks .group → s.list.capabilities.groups.isSupported = true →
    server.normaliseGroup (r.targetId.getD "") = none → s.Fails r (·.kind = .invalidHandle) out
  group : r.Seeks .group → s.list.capabilities.groups.isSupported = true →
    ∀ name, server.normaliseGroup (r.targetId.getD "") = some name →
      s.CanOpen (.group name) → s.ServesGroup server r name out

variable {server : ContactServer σ} {s s₁ : ContactScene σ} {r : ChannelRequest}

/-! ## The roster -/

/-- The check of the roster decides as it should if its refusal is what the request is told. -/
theorem heedsRoster_of_refused {out : Offer × ContactScene σ}
    (h : ∀ refusal, s.list.checkServable = .error refusal →
      out = (.accepted, s.fail [r.token] refusal.toError)) : s.HeedsRoster r out where
  failed e hroster := ⟨e, rfl, h (.rosterFailed e) (by rw [ContactList.checkServable, hroster])⟩
  gone hroster := ⟨.notConnected, rfl, h .gone (by rw [ContactList.checkServable, hroster])⟩
  full hroster hfull := by
    refine ⟨_, rfl, h .queueFull ?_⟩
    simp only [ContactList.checkServable, hroster, if_pos hfull]

theorem offer_of_seeks_list (hr : r.Seeks .list) :
    s.offer server r = (.accepted, conclude r.token (s.requestList r)) := by
  unfold offer
  rw [if_neg (not_not_intro hr.1), hr.2]

theorem offer_of_seeks_group (hr : r.Seeks .group) :
    s.offer server r = (.accepted, conclude r.token (s.requestGroup server r)) := by
  unfold offer
  rw [if_neg (not_not_intro hr.1), hr.2]

section List

variable {k : ListKind} (hname : ListKind.ofName? (r.targetId.getD "") = some k)
include hname

theorem checkListRequest_eq (l : ContactList) :
    checkListRequest l r =
      if k.isSupported l.capabilities = false then .error (.unsupportedList (r.targetId.getD ""))
      else if r.method = .create then .error (.listExists (r.targetId.getD ""))
      else l.checkServable.map fun _ => k := by
  unfold checkListRequest
  simp only [hname]
  cases k.isSupported l.capabilities with
  | false => rfl
  | true =>
    by_cases hmethod : r.method = .create
    · simp [hmethod]
      rfl
    · simp only [Bool.not_true, Bool.false_eq_true, if_false, if_neg hmethod, reduceCtorEq]
      cases l.checkServable <;> rfl

theorem heedsRoster_list (hr : r.Seeks .list)
    (hsupported : k.isSupported s.list.capabilities = true) (hmethod : r.method ≠ .create) :
    s.HeedsRoster r (s.offer server r) := by
  refine heedsRoster_of_refused fun refusal hrefused => ?_
  have hcheck : checkListRequest s.list r = .error refusal := by
    rw [checkListRequest_eq hname, if_neg (by simp [hsupported]), if_neg hmethod, hrefused]
    rfl
  rw [offer_of_seeks_list hr, requestList, hcheck]
  rfl

end List

theorem checkGroupRequest_eq {name : String} {l : ContactList}
    (hgroups : l.capabilities.groups.isSupported = true)
    (hname : server.normaliseGroup (r.targetId.getD "") = some name) :
    checkGroupRequest server l r = l.checkServable.map fun _ => name := by
  unfold checkGroupRequest
  simp only [hgroups, hname, Bool.not_true, Bool.false_eq_true, if_false]
  cases l.checkServable <;> rfl

/-- A request that comes to the check of the roster is treated as the roster demands. -/
theorem heedsRoster_of_considers (h : s.list.Considers server r) :
    s.HeedsRoster r (s.offer server r) := by
  cases h with
  | list hr hname hsupported hmethod => exact heedsRoster_list hname hr hsupported hmethod
  | group hr hgroups hname =>
    refine heedsRoster_of_refused fun refusal hrefused => ?_
    rw [offer_of_seeks_group hr, requestGroup, checkGroupRequest_eq hgroups hname, hrefused]
    rfl

/-! ## Channels that answer -/

/-- The channel of a target, which may just have been opened, answers a request. -/
theorem answered_satisfy {t : ContactTarget} {requested : Bool}
    (hopen : s.openChannel t requested = .ok s₁) :
    s.Answered r t requested (.accepted, s₁.satisfy t r.token) := by
  obtain ⟨rfl, hthere⟩ | ⟨hnone, opened, hensure, rfl⟩ := openChannel_cases hopen
  · obtain ⟨c, hc⟩ := ContactList.hasChannel_iff.mp hthere
    unfold satisfy
    refine ⟨fun c' hc' hknown => ?_, fun hunknown => ⟨fun c' hc' => ?_, fun hnone => ?_⟩⟩
    · simp only [hc', hknown, if_true]
    · simp only [hc', hunknown c' hc', Bool.false_eq_true, if_false]
    · rw [hc] at hnone
      cases hnone
  · refine ⟨fun c hc => ?_, fun _ => ⟨fun c hc => ?_, fun _ => ⟨opened, hensure, ?_⟩⟩⟩
    · rw [hnone] at hc
      cases hc
    · rw [hnone] at hc
      cases hc
    · have hnew : (s.list.put t (s.list.freshChannel t opened.1 requested)).channels.get? t =
          some (s.list.freshChannel t opened.1 requested) := SortedMap.get?_insert_self _ _ _
      simp only [satisfy, hnew, ContactList.put_put]
      rfl

theorem openChannel_of_canOpen {t : ContactTarget} (h : s.CanOpen t) (requested : Bool) :
    ∃ s₁, s.openChannel t requested = .ok s₁ := by
  rcases h with hthere | hgives
  · exact ⟨s, if_pos hthere⟩
  · exact openChannel_isOk hgives requested

/-- A request whose target has no channel cannot be answered by it at once. -/
theorem Answered.waits {t : ContactTarget} {requested : Bool} {out : Offer × ContactScene σ}
    (h : s.Answered r t requested out) (hnone : ¬ s.list.HasChannel t) :
    s.Waits r t requested out :=
  h.unknown fun c hc => absurd (ContactList.hasChannel_iff.mpr ⟨c, hc⟩) hnone

/-! ## Groups that are created -/

theorem creates_createGroupFor {name : String} (hnone : ¬ s.list.HasChannel (.group name))
    (heditable : s.list.capabilities.groups.isEditable = true)
    (hgives : s.tables.Gives .group name) :
    s.Creates server r name
      (.accepted, conclude r.token (s.createGroupFor server name r.token)) := by
  have hgives' : (s.call server (.createGroups [name])).2.tables.Gives .group name :=
    (s.tables.grows_exchangeContacts _ _).gives hgives
  have hlist : (s.call server (.createGroups [name])).2.list = s.list := rfl
  have honce : s.AsksOnce (s.call server (.createGroups [name])).2 (.createGroups [name]) :=
    ⟨_, s.calls_call _, rfl⟩
  -- Whatever is reported afterwards is no call.
  have hasked : ∀ {s' : ContactScene σ} (rep : Report), s'.effects =
      (s.call server (.createGroups [name])).2.effects ++ [.report rep] →
        s.AsksOnce s' (.createGroups [name]) := by
    intro s' rep heffects
    obtain ⟨call, hcalls, hm⟩ := honce
    refine ⟨call, Eq.trans ?_ hcalls, hm⟩
    rw [calls, heffects, List.filterMap_append, calls]
    exact List.append_nil _
  unfold createGroupFor
  rw [if_neg (by simp [heditable])]
  generalize hcalled : s.call server (.createGroups [name]) = called at hgives' hlist hasked
  obtain ⟨failure, s'⟩ := called
  cases failure with
  | some e =>
    refine ⟨hasked (.failed r.token e) rfl, fun e' s'' heq => ?_,
      fun s'' heq => ?_⟩
    · cases hcalled.symm.trans heq
      rfl
    · cases hcalled.symm.trans heq
  | none =>
    obtain ⟨s₁, hopen⟩ := openChannel_isOk (t := .group name) hgives' true
    simp only [hopen]
    obtain ⟨-, hthere⟩ | ⟨-, opened, hensure, rfl⟩ := openChannel_cases hopen
    · rw [hlist] at hthere
      exact absurd hthere hnone
    · have hnew : (s'.list.put (.group name)
          (s'.list.freshChannel (.group name) opened.1 true)).channels.get? (.group name) =
            some (s'.list.freshChannel (.group name) opened.1 true) :=
        SortedMap.get?_insert_self _ _ _
      simp only [conclude, announceFor, hnew, ContactList.put_put]
      refine ⟨hasked _ rfl, fun e s'' heq => ?_, fun s'' heq => ?_⟩
      · cases hcalled.symm.trans heq
      · cases hcalled.symm.trans heq
        refine ⟨opened, hensure, ?_⟩
        rw [← hlist]
        rfl

/-! ## Lists and groups -/

theorem servesList_offer {k : ListKind} (hr : r.Seeks .list)
    (hname : ListKind.ofName? (r.targetId.getD "") = some k) (hopen : s.CanOpen (.list k)) :
    s.ServesList r k (s.offer server r) := by
  have heeds : k.isSupported s.list.capabilities = true → r.method ≠ .create →
      s.HeedsRoster r (s.offer server r) :=
    fun hsupported hmethod => heedsRoster_of_considers (.list hr hname hsupported hmethod)
  rw [offer_of_seeks_list hr, requestList] at heeds ⊢
  have hcheck := checkListRequest_eq hname s.list
  refine ⟨fun hunsupported => ?_, fun hsupported hmethod => ?_, heeds,
    fun hsupported hmethod hserves => ?_⟩
  · rw [hcheck, if_pos hunsupported]
    exact ⟨_, rfl, rfl⟩
  · rw [hcheck, if_neg (by simp [hsupported]), if_pos hmethod]
    exact ⟨_, rfl, rfl⟩
  · obtain ⟨s₁, hopened⟩ := openChannel_of_canOpen hopen false
    rw [hcheck, if_neg (by simp [hsupported]), if_neg hmethod,
      ContactList.checkServable_of_serves hserves]
    simp only [Except.map, hopened]
    exact answered_satisfy hopened

section Group

variable {name : String} (hr : r.Seeks .group)
  (hgroups : s.list.capabilities.groups.isSupported = true)
  (hname : server.normaliseGroup (r.targetId.getD "") = some name)
include hr hgroups hname

theorem offer_of_present (hserves : s.list.Serves) (hthere : s.list.HasChannel (.group name)) :
    s.offer server r = (.accepted, conclude r.token
      (if r.method = .create then (.error (.groupExists name), s)
      else (.ok (), s.satisfy (.group name) r.token))) := by
  have hsome : (s.list.group? name).isSome = true := hthere
  rw [offer_of_seeks_group hr, requestGroup, checkGroupRequest_eq hgroups hname,
    ContactList.checkServable_of_serves hserves]
  simp only [Except.map, if_pos hsome]

theorem offer_of_missing (hserves : s.list.Serves) (hnone : ¬ s.list.HasChannel (.group name)) :
    s.offer server r = (.accepted, conclude r.token
      (if s.list.roster = .received then s.createGroupFor server name r.token
      else
        match s.openChannel (.group name) true with
        | .error e => (.error (.handle e), s)
        | .ok s => (.ok (), s.satisfy (.group name) r.token))) := by
  have hnobody : ¬ (s.list.group? name).isSome = true := hnone
  rw [offer_of_seeks_group hr, requestGroup, checkGroupRequest_eq hgroups hname,
    ContactList.checkServable_of_serves hserves]
  exact congrArg (fun outcome => (Offer.accepted, conclude r.token outcome)) (if_neg hnobody)

theorem servesGroup_offer (hopen : s.CanOpen (.group name)) :
    s.ServesGroup server r name (s.offer server r) := by
  refine ⟨heedsRoster_of_considers (.group hr hgroups hname), fun hserves hthere hmethod => ?_,
    fun hserves hthere hmethod => ?_, fun hpending hroom hnone => ?_,
    fun hreceived hnone hfixed => ?_, fun hreceived hnone heditable => ?_⟩
  · rw [offer_of_present hr hgroups hname hserves hthere, if_pos hmethod]
    exact ⟨_, rfl, rfl⟩
  · rw [offer_of_present hr hgroups hname hserves hthere, if_neg hmethod]
    exact answered_satisfy (if_pos hthere)
  · obtain ⟨s₁, hopened⟩ := openChannel_of_canOpen hopen true
    rw [offer_of_missing hr hgroups hname (.inr ⟨hpending, hroom⟩) hnone,
      if_neg (by simp [hpending]), hopened]
    exact (answered_satisfy hopened).waits hnone
  · rw [offer_of_missing hr hgroups hname (.inl hreceived) hnone, if_pos hreceived,
      createGroupFor, if_pos (by simp [hfixed])]
    exact ⟨_, rfl, rfl⟩
  · rw [offer_of_missing hr hgroups hname (.inl hreceived) hnone, if_pos hreceived]
    exact creates_createGroupFor hnone heditable (hopen.resolve_left hnone)

end Group

/-- A request for something else leaves no trace. -/
theorem offer_of_other (hlist : ¬ r.Seeks .list) (hgroup : ¬ r.Seeks .group) :
    s.offer server r = (.declined, s) := by
  unfold offer
  split
  · rfl
  case isFalse htype =>
    have htype : r.channelType = Property.contactListType := Decidable.not_not.mp htype
    split
    case h_1 hentity => exact absurd ⟨htype, hentity⟩ hlist
    case h_2 hentity => exact absurd ⟨htype, hentity⟩ hgroup
    all_goals rfl

/-- A request is declined if and only if it is for neither a list nor a group of contacts. -/
theorem offer_eq_declined_iff :
    (s.offer server r).1 = .declined ↔ ¬ r.Seeks .list ∧ ¬ r.Seeks .group := by
  constructor
  · intro hdeclined
    refine ⟨fun hlist => ?_, fun hgroup => ?_⟩
    · rw [offer_of_seeks_list hlist] at hdeclined
      cases hdeclined
    · rw [offer_of_seeks_group hgroup] at hdeclined
      cases hdeclined
  · rintro ⟨hlist, hgroup⟩
    rw [offer_of_other hlist hgroup]

/-- Whatever is requested, in whatever state, what comes of it is what the checks say in their
order. -/
theorem handles_offer (server : ContactServer σ) (s : ContactScene σ) (r : ChannelRequest) :
    s.Handles server r (s.offer server r) where
  declines := offer_eq_declined_iff
  untouched hdeclined := by
    obtain ⟨hlist, hgroup⟩ := offer_eq_declined_iff.mp hdeclined
    rw [offer_of_other hlist hgroup]
  unknownList hr hname := by
    refine ⟨(ContactListRefusal.unknownList (r.targetId.getD "")).toError, rfl, ?_⟩
    rw [offer_of_seeks_list hr, requestList]
    unfold checkListRequest
    simp only [hname]
    rfl
  list hr _ hname hopen := servesList_offer hr hname hopen
  noGroups hr hgroups := by
    refine ⟨ContactListRefusal.groupsUnsupported.toError, rfl, ?_⟩
    rw [offer_of_seeks_group hr, requestGroup]
    unfold checkGroupRequest
    simp only [hgroups]
    rfl
  badGroup hr hgroups hname := by
    refine ⟨(ContactListRefusal.badGroupId (r.targetId.getD "")).toError, rfl, ?_⟩
    rw [offer_of_seeks_group hr, requestGroup]
    unfold checkGroupRequest
    simp only [hgroups, hname]
    rfl
  group hr hgroups _ hname hopen := servesGroup_offer hr hgroups hname hopen

end ContactScene

end Telepathy
