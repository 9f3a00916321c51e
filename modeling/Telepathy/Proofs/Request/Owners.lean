import Mathlib.Data.List.Nodup
import Telepathy.Proofs.Request.Report

set_option autoImplicit false

/-!
# Who owns a new channel

A report on new channels goes over its batch three times: it takes the requests, sends the signals
and answers. Nothing is carried from one channel of the batch to the next, so what a request is
answered can be said at its place: it depends on the requests of the same channel, and of these on
whether one insisted on a new channel and on whether one before it asked for any channel.
-/

namespace Telepathy

namespace Reply

/-- Whether a caller is told that it owns a channel. -/
def owns (d : ChannelDetails) : Reply → Bool
  | created channel => channel = d
  | ensured yours channel => yours && channel = d
  | done | requested _ => false

/-- The channel of which a caller is told that asked for a new one or for any. -/
def channel? : Reply → Option ChannelDetails
  | created channel | ensured _ channel => some channel
  | done | requested _ => none

end Reply

/-! ## One channel -/

namespace SatisfiedRequests

/-- Whether the request at position `i` of those that a new channel satisfies is the one to own it,
if it asked for any channel: nobody insisted on a new one, and nobody before it asked for any. -/
def ownsAt (ps : List PendingRequest) (i : Nat) : Bool :=
  ps.all (·.method ≠ .create) && (ps.take i).all (·.method ≠ .ensure)

/-- What is due to the request at position `i` of those that a new channel satisfies. -/
def dueReply (channel : ChannelDetails) (ps : List PendingRequest) (i : Nat) :
    RequestMethod → Reply
  | .create => .created channel
  | .ensure => .ensured (ownsAt ps i) channel
  | .legacy _ => .requested channel.path

/-- Answers in their order, where only the requests before a request count. -/
theorem answers_eq_mapIdx (channel : ChannelDetails) (taken : Bool) (ps : List PendingRequest) :
    answers channel taken ps = ps.mapIdx fun i p =>
      (p.call,
        match p.method with
        | .create => .created channel
        | .ensure => .ensured (!taken && (ps.take i).all (·.method ≠ .ensure)) channel
        | .legacy _ => .requested channel.path) := by
  induction ps generalizing taken with
  | nil => rfl
  | cons p ps ih =>
    rw [List.mapIdx_cons]
    -- After an ensured channel nobody else is to own it; the other answers leave that open.
    cases hm : p.method <;> simp [answers, hm, ih]

/-- Every request gets what is due to it. -/
theorem replies_eq_mapIdx (s : SatisfiedRequests) :
    s.replies =
      s.requests.mapIdx fun i p => (p.call, dueReply s.channel s.requests i p.method) := by
  have hcreate : (!s.requests.any (·.method = .create)) = s.requests.all (·.method ≠ .create) := by
    simp [List.all_eq_not_any_not]
  rw [replies, answers_eq_mapIdx]
  congr 1
  funext i p
  cases p.method <;> simp only [dueReply, ownsAt, hcreate]

theorem suppressHandler_eq (s : SatisfiedRequests) :
    s.suppressHandler =
      decide (∃ p ∈ s.requests, p.method = .create ∨ p.method = .legacy true) := by
  rw [suppressHandler, Bool.eq_iff_iff, List.any_eq_true, decide_eq_true_iff]
  refine exists_congr fun p => and_congr_right fun _ => ?_
  cases p.method <;> simp [RequestMethod.suppressesHandler]

/-- Whoever insisted on a new channel owns it; of the others the first who asked for any channel
does, unless the channel is taken. -/
theorem countP_owns_answers (channel : ChannelDetails) (taken : Bool) (ps : List PendingRequest) :
    (answers channel taken ps).countP (·.2.owns channel) =
      ps.countP (·.method = .create) +
        if taken = false ∧ ∃ p ∈ ps, p.method = .ensure then 1 else 0 := by
  induction ps generalizing taken with
  | nil => simp [answers]
  | cons p ps ih =>
    cases hm : p.method with
    | create =>
      simp only [answers, hm, List.countP_cons, ih]
      simp [Reply.owns, hm, Nat.add_right_comm]
    | ensure =>
      simp only [answers, hm, List.countP_cons, ih]
      cases taken <;> simp [Reply.owns, hm]
    | legacy suppress =>
      simp only [answers, hm, List.countP_cons, ih]
      simp [Reply.owns, hm]

/-- Nobody is told of another channel than the one that was waited for. -/
theorem eq_of_owns {channel d : ChannelDetails} {taken : Bool} {ps : List PendingRequest}
    {r : CallId × Reply} (h : r ∈ answers channel taken ps) (hd : r.2.owns d = true) :
    d = channel := by
  rw [answers_eq_mapIdx] at h
  obtain ⟨i, hi, rfl⟩ := List.mem_mapIdx.mp h
  cases hm : ps[i].method <;> simp_all [Reply.owns]

end SatisfiedRequests

/-! ## One owner -/

/-- How many of those who are answered about new channels are told that they own one. -/
def ownersOf (batch : List SatisfiedRequests) (d : ChannelDetails) : Nat :=
  (batch.flatMap (·.replies)).countP (·.2.owns d)

/-- Of those who are answered about new channels, one at most is told to own a channel, and one is
if anybody who waited for this channel asked for a new one or for any. -/
structure OneOwner (batch : List SatisfiedRequests) (d : ChannelDetails) : Prop where
  atMost : ownersOf batch d ≤ 1
  exactly :
    (∃ s ∈ batch, s.channel = d ∧ ∃ p ∈ s.requests, p.method = .create ∨ p.method = .ensure) →
      ownersOf batch d = 1

namespace SatisfiedRequests

variable {s : SatisfiedRequests} {batch : List SatisfiedRequests}

/-- If at most one request insisted on a new channel, there is an owner exactly if there is a
request for a new channel or for any. -/
theorem ownersOf_singleton (hone : s.requests.countP (·.method = .create) ≤ 1) :
    ownersOf [s] s.channel =
      if ∃ p ∈ s.requests, p.method = .create ∨ p.method = .ensure then 1 else 0 := by
  rw [ownersOf, List.flatMap_singleton, replies, countP_owns_answers]
  by_cases hcreate : ∃ p ∈ s.requests, p.method = .create
  · have htaken : s.requests.any (·.method = .create) = true := by simpa using hcreate
    have hpos : 0 < s.requests.countP (·.method = .create) := by
      simpa [List.countP_pos_iff] using hcreate
    obtain ⟨p, hp, hmethod⟩ := hcreate
    rw [if_neg fun h => by simp [htaken] at h, if_pos ⟨p, hp, .inl hmethod⟩]
    omega
  · have hnone : s.requests.countP (·.method = .create) = 0 := by
      simpa [List.countP_eq_zero] using hcreate
    have hfree : s.requests.any (·.method = .create) = false := by simpa using hcreate
    have hensure : (∃ p ∈ s.requests, p.method = .create ∨ p.method = .ensure) ↔
        ∃ p ∈ s.requests, p.method = .ensure :=
      exists_congr fun p => and_congr_right fun hp =>
        or_iff_right fun hmethod => hcreate ⟨p, hp, hmethod⟩
    simp only [hnone, hfree, hensure, true_and, Nat.zero_add]

theorem ownersOf_others {d : ChannelDetails} (h : d ∉ batch.map (·.channel)) :
    ownersOf batch d = 0 := by
  refine List.countP_eq_zero.mpr fun r hr howns => ?_
  obtain ⟨s, hs, hr⟩ := List.mem_flatMap.mp hr
  exact h (List.mem_map.mpr ⟨s, hs, (eq_of_owns hr howns).symm⟩)

/-- Each channel of a batch has one owner at most. -/
theorem oneOwner_batch (hnodup : (batch.map (·.channel)).Nodup)
    (hone : ∀ s ∈ batch, s.requests.countP (·.method = .create) ≤ 1) {d : ChannelDetails}
    (hd : d ∈ batch.map (·.channel)) : OneOwner batch d := by
  obtain ⟨s, hs, rfl⟩ := List.mem_map.mp hd
  have howners : ownersOf batch s.channel = ownersOf [s] s.channel := by
    obtain ⟨before, after, rfl⟩ := List.append_of_mem hs
    rw [List.map_append, List.map_cons, List.nodup_append, List.nodup_cons] at hnodup
    obtain ⟨-, ⟨hafter, -⟩, hbefore⟩ := hnodup
    have hfirst : s.channel ∉ before.map (·.channel) := fun hmem =>
      hbefore _ hmem _ List.mem_cons_self rfl
    have hsplit : ownersOf (before ++ s :: after) s.channel =
        ownersOf before s.channel + (ownersOf [s] s.channel + ownersOf after s.channel) := by
      simp only [ownersOf, List.flatMap_append, List.flatMap_cons, List.flatMap_nil,
        List.countP_append, List.countP_nil, Nat.add_zero]
    rw [hsplit, ownersOf_others hfirst, ownersOf_others hafter, Nat.zero_add, Nat.add_zero]
  refine ⟨?_, fun ⟨s', hs', hsame, hwanted⟩ => ?_⟩ <;>
    rw [howners, ownersOf_singleton (hone s hs)]
  · split <;> decide
  · obtain rfl := List.inj_on_of_nodup_map hnodup hs' hs hsame
    exact if_pos hwanted

end SatisfiedRequests

/-! ## Batches -/

namespace RequestLedger

variable {l : RequestLedger}

theorem waiting_without {tokens tokens' : List RequestToken}
    (h : ∀ token ∈ tokens', token ∉ tokens) :
    (l.without tokens).waiting tokens' = l.waiting tokens' :=
  List.filterMap_congr fun token ht => by rw [get?_without, if_neg (h token ht)]

/-- A batch whose tokens are different and in flight takes their requests. -/
theorem claimBatch_eq_ok {batch : List (ChannelDetails × List RequestToken)}
    (hnodup : (batch.flatMap (·.2)).Nodup)
    (hpending : ∀ token ∈ batch.flatMap (·.2), l.isPending token = true) :
    l.claimBatch batch =
      .ok (batch.map fun entry => ⟨entry.1, l.waiting entry.2⟩,
        l.without (batch.flatMap (·.2))) := by
  induction batch generalizing l with
  | nil => rw [List.flatMap_nil, without_nil]; rfl
  | cons entry batch ih =>
    rw [List.flatMap_cons] at hnodup hpending ⊢
    obtain ⟨hfirst, hrest, hdisjoint⟩ := List.nodup_append.mp hnodup
    have hother : ∀ token ∈ batch.flatMap (·.2), token ∉ entry.2 :=
      fun token ht hmem => hdisjoint token hmem token ht rfl
    have hclaim : l.claimAll entry.2 = .ok (l.waiting entry.2, l.without entry.2) :=
      claimAll_eq_ok_iff.mpr ⟨hfirst,
        waiting_map_some fun token ht => hpending token (List.mem_append_left _ ht), rfl⟩
    have hleft := ih (l := l.without entry.2) hrest fun token ht =>
      isPending_without.mpr ⟨hpending token (List.mem_append_right _ ht), hother token ht⟩
    have hsame : (batch.map fun e => (⟨e.1, (l.without entry.2).waiting e.2⟩ : SatisfiedRequests)) =
        batch.map fun e => ⟨e.1, l.waiting e.2⟩ := by
      refine List.map_congr_left fun e he => ?_
      rw [waiting_without fun token ht => hother token (List.mem_flatMap.mpr ⟨e, he, ht⟩)]
    rw [claimBatch, hclaim]
    simp only [bind, Except.bind]
    rw [hleft, hsame, without_without]
    rfl

/-- Tokens in a row are claimed up to the first that is not in flight or was claimed before. -/
theorem claimAll_eq_error {tokens : List RequestToken} {fault : Fault}
    (h : l.claimAll tokens = .error fault) :
    ∃ before token after, tokens = before ++ token :: after ∧ fault = .notInFlight token ∧
      (l.isPending token = false ∨ token ∈ before) := by
  induction tokens generalizing l with
  | nil => cases h
  | cons token tokens ih =>
    obtain hclaim | ⟨⟨p, l'⟩, hclaim, h⟩ := Except.bind_eq_error.mp h
    · refine ⟨[], token, tokens, rfl, ?_⟩
      unfold claim at hclaim
      split at hclaim
      case h_1 hnone =>
        cases hclaim
        exact ⟨rfl, .inl (by simp [isPending, SortedMap.contains, hnone])⟩
      case h_2 => cases hclaim
    · obtain ⟨-, rfl⟩ := claim_eq_ok_iff.mp hclaim
      obtain h | ⟨_, -, h⟩ := Except.bind_eq_error.mp h
      · obtain ⟨before, t, after, rfl, rfl, ht⟩ := ih h
        refine ⟨token :: before, t, after, rfl, rfl, ?_⟩
        obtain ht | ht := ht
        · by_cases heq : t = token
          · exact .inr (heq ▸ List.mem_cons_self)
          · refine .inl (Bool.eq_false_iff.mpr fun hp => ?_)
            exact Bool.eq_false_iff.mp ht
              (isPending_without.mpr ⟨hp, fun hmem => heq (List.mem_singleton.mp hmem)⟩)
        · exact .inr (List.mem_cons_of_mem _ ht)
      · simp [pure, Except.pure] at h

/-- A batch with a token that is not in flight, or that occurs twice, is not carried out. -/
theorem claimBatch_eq_error {batch : List (ChannelDetails × List RequestToken)}
    (h : ¬((batch.flatMap (·.2)).Nodup ∧
      ∀ token ∈ batch.flatMap (·.2), l.isPending token = true)) :
    ∃ token ∈ batch.flatMap (·.2),
      (l.isPending token = false ∨ 2 ≤ (batch.flatMap (·.2)).count token) ∧
        l.claimBatch batch = .error (.notInFlight token) := by
  cases hbatch : l.claimBatch batch with
  | ok claimed =>
    have hall : l.claimAll (batch.flatMap (·.2)) =
        .ok (claimed.1.flatMap (·.requests), claimed.2) := by
      rw [← claimBatch_map, hbatch]
      rfl
    obtain ⟨hnodup, hps, -⟩ := claimAll_eq_ok_iff.mp hall
    refine absurd ⟨hnodup, fun token ht => ?_⟩ h
    obtain ⟨p, -, hp⟩ := mem_of_claimed hps ht
    exact isPending_iff.mpr ⟨p, hp⟩
  | error fault =>
    have hall : l.claimAll (batch.flatMap (·.2)) = .error fault := by
      rw [← claimBatch_map, hbatch]
      rfl
    obtain ⟨before, token, after, htokens, rfl, hwhy⟩ := claimAll_eq_error hall
    refine ⟨token, by simp [htokens], hwhy.imp_right fun hmem => ?_, rfl⟩
    have := List.count_pos_iff.mpr hmem
    rw [htokens, List.count_append, List.count_cons_self]
    omega

/-- What is done about new channels once their requests are taken. -/
theorem announce_eq (path : ObjectPath) (batch : List (ChannelDetails × List PendingRequest)) :
    announce path (batch.map fun entry => ⟨entry.1, entry.2⟩) =
      .signal path (.newChannels (batch.map (·.1))) ::
        batch.map (fun entry => .signal path (.newChannel entry.1.path entry.1.channelType
          entry.1.entity entry.1.target?
          (∃ p ∈ entry.2, p.method = .create ∨ p.method = .legacy true))) ++
        batch.flatMap fun entry => entry.2.mapIdx fun i p =>
          .answered p.call (.returned (SatisfiedRequests.dueReply entry.1 entry.2 i p.method)) := by
  simp only [announce, SatisfiedRequests.announcement, SatisfiedRequests.suppressHandler_eq,
    SatisfiedRequests.replies_eq_mapIdx, List.map_map, List.flatMap_map, List.map_flatMap,
    List.mapIdx_eq_zipIdx_map, Function.comp_def]

/-- How a report on new channels is settled if its tokens are different and in flight. -/
theorem settle_newChannels_eq_ok (path : ObjectPath)
    {batch : List (ChannelDetails × List RequestToken)} (hne : batch ≠ [])
    (hnodup : (batch.flatMap (·.2)).Nodup)
    (hpending : ∀ token ∈ batch.flatMap (·.2), l.isPending token = true) :
    l.settle path (.newChannels batch) =
      .ok ⟨l.without (batch.flatMap (·.2)),
        announce path (batch.map fun entry => ⟨entry.1, l.waiting entry.2⟩),
        (l.waiting (batch.flatMap (·.2))).filterMap (·.target)⟩ := by
  have htargets :
      (batch.map fun entry => (⟨entry.1, l.waiting entry.2⟩ : SatisfiedRequests)).flatMap
        (fun s => s.requests.filterMap (·.target)) =
        (l.waiting (batch.flatMap (·.2))).filterMap (·.target) := by
    simp only [waiting, List.flatMap_map, List.filterMap_flatMap]
  obtain ⟨entry, rest, rfl⟩ := List.exists_cons_of_ne_nil hne
  rw [settle, claimBatch_eq_ok hnodup hpending, ← htargets]
  · rfl
  · simp

/-- At most one of the requests that wait is for a new channel if only the first can be. -/
theorem countP_waiting_le_one {tokens : List RequestToken}
    (h : ∀ token ∈ tokens.tail, ∀ p, l.inFlight.get? token = some p → p.method ≠ .create) :
    (l.waiting tokens).countP (·.method = .create) ≤ 1 := by
  cases tokens with
  | nil => exact Nat.zero_le _
  | cons token tokens =>
    have hlater : (l.waiting tokens).countP (·.method = .create) = 0 := by
      refine List.countP_eq_zero.mpr fun p hp => ?_
      obtain ⟨token', ht, hget⟩ := List.mem_filterMap.mp hp
      simpa using h token' ht p hget
    rw [waiting, List.filterMap_cons]
    split
    · rw [← waiting, hlater]
      exact Nat.zero_le 1
    · rw [List.countP_cons, ← waiting, hlater]
      split <;> decide

end RequestLedger

/-! ## Announcements among events -/

namespace Event

/-- Whether an event is an answer to a call. -/
def isAnswer : Event → Bool
  | answered _ _ => true
  | _ => false

/-- What a caller is told by an event. -/
def reply? : Event → Option Reply
  | answered _ (.returned r) => some r
  | _ => none

/-- The sender and the channels of an announcement. -/
def announced? : Event → Option (ObjectPath × List ChannelDetails)
  | signal path (.newChannels channels) => some (path, channels)
  | _ => none

theorem eq_of_announced? {e : Event} {path : ObjectPath} {channels : List ChannelDetails}
    (h : e.announced? = some (path, channels)) : e = .signal path (.newChannels channels) := by
  unfold announced? at h
  split at h <;> cases h
  rfl

end Event

/-- What callers are told before anything else happens. -/
def firstReplies (events : List Event) : List Reply :=
  (events.takeWhile Event.isAnswer).filterMap Event.reply?

theorem firstReplies_append (events more : List Event) :
    firstReplies (events ++ more) = firstReplies events ∨
      firstReplies (events ++ more) = firstReplies events ++ firstReplies more := by
  simp only [firstReplies, List.takeWhile_append]
  split
  case isTrue hall =>
    rw [(List.takeWhile_prefix _).eq_of_length hall, List.filterMap_append]
    exact .inr rfl
  case isFalse => exact .inl rfl

/-- An announcement that was made before some events does not go on with them. -/
def Mute (events : List Event) : Prop := ∀ r ∈ firstReplies events, r.channel? = none

/-- An event that announces nothing and tells nobody of a channel. -/
def Event.IsIdle : Event → Prop
  | signal _ (.newChannels _) => False
  | answered _ (.returned r) => r.channel? = none
  | _ => True

namespace Mute

variable {events more : List Event}

theorem nil : Mute [] := fun _ hr => absurd hr List.not_mem_nil

theorem append (h : Mute events) (hmore : Mute more) : Mute (events ++ more) := by
  intro r hr
  rcases firstReplies_append events more with heq | heq <;> rw [heq] at hr
  · exact h r hr
  · rcases List.mem_append.mp hr with hr | hr
    · exact h r hr
    · exact hmore r hr

theorem of_idle (h : ∀ e ∈ events, e.IsIdle) : Mute events := by
  intro r hr
  obtain ⟨e, he, hreply⟩ := List.mem_filterMap.mp hr
  have hidle := h e ((List.takeWhile_sublist _).subset he)
  unfold Event.reply? at hreply
  split at hreply
  · cases hreply
    exact hidle
  · cases hreply

/-- What is no answer ends an announcement. -/
theorem cons {e : Event} (he : e.isAnswer = false) (events : List Event) : Mute (e :: events) := by
  intro r hr
  rw [firstReplies, List.takeWhile_cons_of_neg (Bool.eq_false_iff.mp he)] at hr
  cases hr

end Mute

/-- Each announcement in the course of some events, if `p` holds of the events before it, answers
requests that are due, and nobody else, and names one owner at most for every channel. -/
def Owned (due : PendingRequest → Prop) (p : List Event → Prop) (events : List Event) : Prop :=
  ∀ before path channels later,
    events = before ++ .signal path (.newChannels channels) :: later → p before →
      ∃ batch rest,
        .signal path (.newChannels channels) :: later =
          RequestLedger.announce path batch ++ rest ∧
        Mute rest ∧ (∀ s ∈ batch, ∀ q ∈ s.requests, due q) ∧ ∀ d ∈ channels, OneOwner batch d

namespace Owned

variable {due : PendingRequest → Prop} {p q : List Event → Prop} {events more : List Event}

theorem mono (h : Owned due p events) (hpq : ∀ before, q before → p before) : Owned due q events :=
  fun before path channels later hsplit hq => h before path channels later hsplit (hpq before hq)

theorem append (h : Owned due p events)
    (hmore : Owned due (fun before => p (events ++ before)) more) (hmute : Mute more) :
    Owned due p (events ++ more) := by
  intro before path channels later hsplit hp
  rcases List.append_eq_append_iff.mp hsplit with ⟨l, rfl, htail⟩ | ⟨l, hhead, htail⟩
  · exact hmore l path channels later htail hp
  · cases l with
    | nil =>
      rw [List.append_nil] at hhead
      have hp' : p (events ++ []) := by rwa [List.append_nil, hhead]
      exact hmore [] path channels later htail.symm hp'
    | cons x l =>
      obtain ⟨rfl, rfl⟩ := List.cons.inj htail
      obtain ⟨batch, rest, hannounced, hrest, howned⟩ := h before path channels l hhead hp
      refine ⟨batch, rest ++ more, ?_, hrest.append hmute, howned⟩
      rw [← List.append_assoc, ← hannounced]
      rfl

theorem nil : Owned due p [] :=
  fun before _ _ _ hsplit => absurd hsplit.symm (by simp)

/-- Without announcements there is nothing to be owned. -/
theorem of_silent (h : ∀ path channels, .signal path (.newChannels channels) ∉ events) :
    Owned due p events :=
  fun before path channels later hsplit => absurd (by simp [hsplit]) (h path channels)

theorem of_idle (h : ∀ e ∈ events, e.IsIdle) : Owned due p events :=
  of_silent fun _ _ he => h _ he

end Owned

/-- A report that announces different channels, for each of which at most one request insists on a
new channel, and that passes off no channel as an old one. -/
def Report.IsFair (insists : RequestToken → Prop) : Report → Prop
  | newChannels batch =>
    (batch.map Prod.fst).Nodup ∧ ∀ entry ∈ batch, ∀ token ∈ entry.2.tail, ¬insists token
  | alreadySatisfied _ _ => False
  | failed _ _ | closed _ => True

namespace RequestLedger

variable {l : RequestLedger} {due : PendingRequest → Prop} {insists : RequestToken → Prop}

theorem owned_announce {path : ObjectPath} {batch : List SatisfiedRequests}
    (hnodup : (batch.map (·.channel)).Nodup)
    (hone : ∀ s ∈ batch, s.requests.countP (·.method = .create) ≤ 1)
    (hdue : ∀ s ∈ batch, ∀ q ∈ s.requests, due q) :
    Owned due (fun _ => True) (announce path batch) := by
  intro before path' channels later hsplit _
  cases before with
  | nil =>
    obtain ⟨hsignal, rfl⟩ := List.cons.inj hsplit
    cases hsignal
    exact ⟨batch, [], hsplit.symm.trans (List.append_nil _).symm, .nil, hdue, fun d hd =>
      SatisfiedRequests.oneOwner_batch hnodup hone hd⟩
  | cons x before =>
    -- What follows the first signal are signals about single channels, and answers.
    have hrest : (batch.map fun s => Event.signal path s.announcement) ++
        (batch.flatMap (·.replies)).map (fun r => Event.answered r.1 (.returned r.2)) =
          before ++ .signal path' (.newChannels channels) :: later := (List.cons.inj hsplit).2
    have hmem : Event.signal path' (.newChannels channels) ∈
        before ++ .signal path' (.newChannels channels) :: later := by simp
    rw [← hrest] at hmem
    rcases List.mem_append.mp hmem with hmem | hmem
    · obtain ⟨s, -, hs⟩ := List.mem_map.mp hmem
      cases hs
    · obtain ⟨r, -, hr⟩ := List.mem_map.mp hmem
      cases hr

/-- The requests in flight are due, and those for new channels are known to insist on these. -/
def Knows (due : PendingRequest → Prop) (insists : RequestToken → Prop) (l : RequestLedger) :
    Prop :=
  ∀ token p, l.inFlight.get? token = some p → due p ∧ (p.method = .create → insists token)

theorem Knows.without (h : l.Knows due insists) (tokens : List RequestToken) :
    (l.without tokens).Knows due insists := by
  intro token p hp
  rw [get?_without] at hp
  split at hp
  · cases hp
  · exact h token p hp

/-- Of the requests that a fair report answers, one at most is told to own a channel. -/
theorem owned_settle {path : ObjectPath} {r : Report} {s : Settlement}
    (hflight : l.Knows due insists) (hfair : r.IsFair insists) (h : l.settle path r = .ok s) :
    Owned due (fun _ => True) s.events ∧ Mute s.events := by
  have hidle : (∀ e ∈ s.events, e.IsIdle) → Owned due (fun _ => True) s.events ∧ Mute s.events :=
    fun h => ⟨.of_idle h, .of_idle h⟩
  cases r with
  | newChannels batch =>
    cases batch with
    | nil =>
      cases h
      exact ⟨.nil, .nil⟩
    | cons entry batch =>
      obtain ⟨ps, hnodup, hps, -⟩ := settle_spec h
      have hpending : ∀ token ∈ (entry :: batch).flatMap (·.2), l.isPending token = true := by
        intro token ht
        obtain ⟨p, -, hp⟩ := mem_of_claimed hps ht
        exact isPending_iff.mpr ⟨p, hp⟩
      obtain ⟨hdifferent, hfirst⟩ := hfair
      rw [settle_newChannels_eq_ok path (List.cons_ne_nil _ _) hnodup hpending] at h
      cases h
      refine ⟨owned_announce (by rwa [List.map_map]) (fun s hs => ?_) fun s hs q hq => ?_,
        .cons rfl _⟩
      · obtain ⟨e, he, rfl⟩ := List.mem_map.mp hs
        exact countP_waiting_le_one fun token ht p hp hcreate =>
          hfirst e he token ht ((hflight token p hp).2 hcreate)
      · obtain ⟨e, -, rfl⟩ := List.mem_map.mp hs
        obtain ⟨token, -, hget⟩ := List.mem_filterMap.mp hq
        exact (hflight token q hget).1
  | alreadySatisfied token channel => exact hfair.elim
  | failed token e =>
    obtain ⟨⟨p, l'⟩, -, h⟩ := Except.bind_eq_ok.mp h
    cases h
    exact hidle fun e he => List.mem_singleton.mp he ▸ trivial
  | closed channel =>
    cases h
    exact hidle fun e he => List.mem_singleton.mp he ▸ trivial

/-- Who gets a channel that was there before is all that hears of it. -/
theorem events_of_alreadySatisfied {path : ObjectPath} {token : RequestToken}
    {channel : ChannelDetails} {s : Settlement}
    (h : l.settle path (.alreadySatisfied token channel) = .ok s) :
    ∃ call a, s.events = [.answered call a] := by
  obtain ⟨⟨p, l'⟩, -, h⟩ := Except.bind_eq_ok.mp h
  cases hm : p.method <;> simp only [hm] at h <;> cases h <;> exact ⟨_, _, rfl⟩

end RequestLedger

end Telepathy
