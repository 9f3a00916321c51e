import Telepathy.ContactList.MemoryServer
import Telepathy.Proofs.Connection.Conservation
import Telepathy.Proofs.Connection.Stages
import Telepathy.Proofs.ContactList.Announcements

set_option autoImplicit false

/-!
# Whoever listens knows the channels

Clients learn of channels by signals: one says which channels came into being, all at once, and is
followed by one for each of them, for old clients; another says that a channel went away, after the
channel has said so itself. Somebody who keeps the set of announced paths by these signals knows at
every moment exactly the channels that the connection has announced, provided that its only manager
is a contact list that moves no group to its own name.

`Hears` says which signals these are. An operation adds to them what its effects say.
-/

namespace Telepathy

variable {σ ρ : Type}

/-! ## Listening -/

namespace Signal

/-- What somebody who knows the channels at some paths knows after a signal. -/
def hear (known : SortedSet ObjectPath) : Signal → SortedSet ObjectPath
  | newChannels channels => known.union (.ofList (channels.map (·.path)))
  | channelClosed path => known.erase path
  | _ => known

/-- The channel of which a signal tells old clients. -/
def listing? : Signal → Option ChannelListing
  | newChannel path channelType entity handle _ =>
    some ⟨path, channelType, entity.wire, Handle.numberOrZero handle⟩
  | _ => none

theorem IsQuiet.hear {s : Signal} (h : s.IsQuiet) (known : SortedSet ObjectPath) :
    s.hear known = known := by
  cases s with
  | newChannels channels => exact h.elim
  | channelClosed path => exact h.elim
  | _ => rfl

theorem IsQuiet.listing? {s : Signal} (h : s.IsQuiet) : s.listing? = none := by
  cases s with
  | newChannel => exact h.elim
  | _ => rfl

end Signal

/-- The paths of the channels that somebody knows who heard all these signals. -/
def heard (signals : List (ObjectPath × Signal)) : SortedSet ObjectPath :=
  signals.foldl (fun known s => s.2.hear known) .empty

theorem heard_append (signals more : List (ObjectPath × Signal)) :
    heard (signals ++ more) = more.foldl (fun known s => s.2.hear known) (heard signals) :=
  List.foldl_append

/-- The signals by which a connection at `home` makes channels known. -/
inductive Hears (home : ObjectPath) : List (ObjectPath × Signal) → SortedSet ObjectPath → Prop
  | silence : Hears home [] .empty
  | quiet {signals : List (ObjectPath × Signal)} {known : SortedSet ObjectPath}
      {sender : ObjectPath} {s : Signal} (h : Hears home signals known) (hs : s.IsQuiet) :
      Hears home (signals ++ [(sender, s)]) known
  | announce {signals : List (ObjectPath × Signal)} {known : SortedSet ObjectPath}
      {batch : List SatisfiedRequests} (h : Hears home signals known)
      (hnodup : (batch.map (·.channel.path)).Nodup)
      (hnew : ∀ p ∈ batch.map (·.channel.path), p ∉ known) :
      Hears home
        (signals ++ (home, .newChannels (batch.map (·.channel))) ::
          batch.map fun s => (home, s.announcement))
        (known.union (.ofList (batch.map (·.channel.path))))
  | close {signals : List (ObjectPath × Signal)} {known : SortedSet ObjectPath} {p : ObjectPath}
      (h : Hears home signals known) (hp : p ∈ known) :
      Hears home (signals ++ [(p, .closed), (home, .channelClosed p)]) (known.erase p)

/-- A signal comes where it belongs. -/
def Fits (home : ObjectPath) (before : List (ObjectPath × Signal)) (sender : ObjectPath)
    (later : List (ObjectPath × Signal)) : Signal → Prop
  | .newChannels channels =>
    sender = home ∧ (channels.map (·.path)).Nodup ∧ (∀ d ∈ channels, d.path ∉ heard before) ∧
      (later.takeWhile (·.2.listing?.isSome)).map (fun s => (s.1, s.2.listing?)) =
        channels.map fun d => (home, some d.listing)
  | .channelClosed path =>
    sender = home ∧ path ∈ heard before ∧ before.getLast? = some (path, .closed)
  | .closed => later.head? = some (home, .channelClosed sender)
  | _ => True

namespace Hears

variable {home : ObjectPath} {signals more : List (ObjectPath × Signal)}
  {known : SortedSet ObjectPath}

theorem append_quiet (h : Hears home signals known) (hmore : ∀ s ∈ more, s.2.IsQuiet) :
    Hears home (signals ++ more) known := by
  induction more generalizing signals with
  | nil => rwa [List.append_nil]
  | cons s more ih =>
    have hfirst : Hears home (signals ++ [(s.1, s.2)]) known := h.quiet (hmore s List.mem_cons_self)
    rw [List.append_cons]
    exact ih hfirst fun s' hs' => hmore s' (List.mem_cons_of_mem _ hs')

/-- The set that is kept comes from the signals alone. -/
theorem heard_eq (h : Hears home signals known) : heard signals = known := by
  induction h with
  | silence => rfl
  | quiet _ hs ih =>
    rw [heard_append, ih]
    exact hs.hear _
  | @announce signals known batch _ _ _ ih =>
    have hsingle : ∀ (l : List SatisfiedRequests) (known : SortedSet ObjectPath),
        (l.map fun s => (home, s.announcement)).foldl (fun known s => s.2.hear known) known =
          known := by
      intro l
      induction l with
      | nil => exact fun _ => rfl
      | cons s l ih => exact fun known => ih known
    rw [heard_append, ih, List.foldl_cons, hsingle]
    simp only [Signal.hear, List.map_map]
    rfl
  | close _ _ ih =>
    rw [heard_append, ih]
    rfl

end Hears

namespace Fits

variable {home sender : ObjectPath} {before later more : List (ObjectPath × Signal)} {s : Signal}

theorem of_quiet (h : s.IsQuiet) : Fits home before sender later s := by
  cases s with
  | newChannels channels => exact h.elim
  | channelClosed path => exact h.elim
  | closed => exact h.elim
  | _ => trivial

/-- A signal still fits when more comes after it, if the block it opens is over. -/
theorem append (h : Fits home before sender later s)
    (hmore : more.takeWhile (·.2.listing?.isSome) = []) :
    Fits home before sender (later ++ more) s := by
  cases s with
  | newChannels channels =>
    obtain ⟨hsender, hnodup, hnew, hblock⟩ := h
    refine ⟨hsender, hnodup, hnew, ?_⟩
    rw [List.takeWhile_append, hmore, List.append_nil]
    split
    case isTrue hall => rwa [(List.takeWhile_prefix _).eq_of_length hall] at hblock
    case isFalse => exact hblock
  | closed =>
    cases later with
    | nil => cases h
    | cons s later => exact h
  | _ => exact h

end Fits

/-- Signals that fit still fit when more come, which fit as well. -/
theorem fits_append {home : ObjectPath} {signals more : List (ObjectPath × Signal)}
    (hsignals : ∀ before sender s later, signals = before ++ (sender, s) :: later →
      Fits home before sender later s)
    (hend : more.takeWhile (·.2.listing?.isSome) = [])
    (hmore : ∀ before sender s later, more = before ++ (sender, s) :: later →
      Fits home (signals ++ before) sender later s) :
    ∀ before sender s later, signals ++ more = before ++ (sender, s) :: later →
      Fits home before sender later s := by
  intro before sender s later hsplit
  rcases List.append_eq_append_iff.mp hsplit with ⟨l, rfl, htail⟩ | ⟨l, hhead, htail⟩
  · exact hmore l sender s later htail
  · cases l with
    | nil =>
      rw [List.append_nil] at hhead
      have := hmore [] sender s later htail.symm
      rwa [List.append_nil, hhead] at this
    | cons x l =>
      obtain ⟨rfl, rfl⟩ := List.cons.inj htail
      exact (hsignals before sender s l hhead).append hend

theorem Hears.fits {home : ObjectPath} {signals : List (ObjectPath × Signal)}
    {known : SortedSet ObjectPath} (h : Hears home signals known) :
    ∀ before sender s later, signals = before ++ (sender, s) :: later →
      Fits home before sender later s := by
  induction h with
  | silence => simp
  | @quiet signals known sender s h hs ih =>
    refine fits_append ih ?_ fun before sender' s' later hsplit => ?_
    · rw [List.takeWhile_cons, hs.listing?]
      rfl
    · obtain ⟨rfl, hx, rfl⟩ : before = [] ∧ (sender, s) = (sender', s') ∧ later = [] := by
        cases before with
        | nil =>
          obtain ⟨hx, hlater⟩ := List.cons.inj hsplit
          exact ⟨rfl, hx, hlater.symm⟩
        | cons x before => simp at hsplit
      cases hx
      exact .of_quiet hs
  | @announce signals known batch h hnodup hnew ih =>
    refine fits_append ih rfl fun before sender s later hsplit => ?_
    cases before with
    | nil =>
      obtain ⟨hx, rfl⟩ := List.cons.inj hsplit
      cases hx
      refine ⟨rfl, ?_, ?_, ?_⟩
      · rwa [List.map_map]
      · intro d hd
        rw [List.append_nil, h.heard_eq]
        obtain ⟨r, hr, rfl⟩ := List.mem_map.mp hd
        exact hnew _ (List.mem_map_of_mem hr)
      · have hall : ∀ s ∈ batch.map fun r => (home, r.announcement),
            s.2.listing?.isSome = true := by
          simp [SatisfiedRequests.announcement, Signal.listing?]
        rw [← List.append_nil (batch.map _), List.takeWhile_append_of_pos hall, List.takeWhile_nil,
          List.append_nil, List.map_map, List.map_map]
        rfl
    | cons x before =>
      obtain ⟨-, htail⟩ := List.cons.inj hsplit
      have hmem : (sender, s) ∈ batch.map fun r => (home, r.announcement) := by
        rw [htail]
        simp
      obtain ⟨r, -, heq⟩ := List.mem_map.mp hmem
      cases heq
      trivial
  | @close signals known p h hp ih =>
    refine fits_append ih rfl fun before sender s later hsplit => ?_
    match before, hsplit with
    | [], hsplit =>
      obtain ⟨hx, rfl⟩ := List.cons.inj hsplit
      cases hx
      rfl
    | [x], hsplit =>
      obtain ⟨rfl, htail⟩ := List.cons.inj hsplit
      obtain ⟨hx, -⟩ := List.cons.inj htail
      cases hx
      refine ⟨rfl, ?_, by simp⟩
      rw [heard_append, h.heard_eq]
      exact hp
    | x :: y :: before, hsplit =>
      simp at hsplit

/-! ## Effects -/

/-- The satisfied requests of a batch are those of its channels, in order. -/
theorem RequestLedger.channels_of_claimBatch {batch : List (ChannelDetails × List RequestToken)}
    {l : RequestLedger} {claimed : List SatisfiedRequests × RequestLedger}
    (h : l.claimBatch batch = .ok claimed) : claimed.1.map (·.channel) = batch.map Prod.fst := by
  induction batch generalizing l claimed with
  | nil =>
    cases h
    rfl
  | cons entry batch ih =>
    obtain ⟨⟨requests, l'⟩, -, h⟩ := Except.bind_eq_ok.mp h
    obtain ⟨⟨rest, l''⟩, hrest, h⟩ := Except.bind_eq_ok.mp h
    cases h
    exact congrArg (entry.1 :: ·) (ih hrest)

/-- The signals among some events, with their senders. -/
def signalsIn (events : List Event) : List (ObjectPath × Signal) :=
  events.filterMap fun e =>
    match e with
    | .signal path s => some (path, s)
    | _ => none

theorem signalsIn_append (events more : List Event) :
    signalsIn (events ++ more) = signalsIn events ++ signalsIn more :=
  List.filterMap_append

theorem signalsIn_eq_nil {events : List Event} (h : ∀ e ∈ events, ∀ path s, e ≠ .signal path s) :
    signalsIn events = [] := by
  refine List.filterMap_eq_nil_iff.mpr fun e he => ?_
  cases e with
  | signal path s => exact absurd rfl (h _ he path s)
  | _ => rfl

theorem signalsIn_map {α : Type} (path : α → ObjectPath) (signal : α → Signal) (l : List α) :
    signalsIn (l.map fun a => .signal (path a) (signal a)) = l.map fun a => (path a, signal a) := by
  rw [signalsIn, List.filterMap_map]
  exact congrFun List.filterMap_eq_map l

/-- The signals about new channels are one for all of them and one for each. -/
theorem RequestLedger.signalsIn_announce (path : ObjectPath) (batch : List SatisfiedRequests) :
    signalsIn (announce path batch) =
      (path, .newChannels (batch.map (·.channel))) ::
        batch.map fun s => (path, s.announcement) := by
  have hanswers : signalsIn ((batch.flatMap (·.replies)).map fun r =>
      .answered r.1 (.returned r.2)) = [] :=
    signalsIn_eq_nil fun e he path s heq => by
      obtain ⟨r, -, rfl⟩ := List.mem_map.mp he
      cases heq
  rw [announce, List.cons_append]
  show (path, Signal.newChannels _) :: signalsIn (_ ++ _) = _
  rw [signalsIn_append, signalsIn_map, hanswers, List.append_nil]

/-- By an operation on a contact list over `server`, no group is moved to its own name. -/
def Operation.MovesApart (server : ContactServer ρ) (op : Operation σ ρ) : Prop :=
  ∀ seat named, op = .contacts seat named → ∀ old target,
    named.renaming? server.normaliseGroup = some (old, target) → old ≠ target

namespace Connection

variable {c₀ c c₁ : Connection σ ρ} {op : Operation σ ρ} {server : ContactServer ρ}
  {start known : SortedSet ObjectPath}

theorem signals_record (c : Connection σ ρ) (events : List Event) :
    (c.record events).signals = c.signals ++ signalsIn events :=
  List.filterMap_append

theorem names_performAll {seat : Nat} {effects : List Effect}
    (h : effects.foldlM (perform seat) c = .ok c₁) : c₁.names = c.names := by
  rw [(List.foldlM_rel Served.refl Served.trans served_perform h).frame]

/-! ### One effect after the other -/

/-- What is quiet leaves what is heard as it was. -/
theorem hears_quiet {home : ObjectPath} (h : Hears home c.signals known) {events : List Event}
    (hlog : c₁.log = c.log ++ events) (hevents : ∀ s ∈ signalsIn events, s.2.IsQuiet) :
    Hears home c₁.signals known := by
  have hsignals : c₁.signals = c.signals ++ signalsIn events := by
    rw [signals, hlog, List.filterMap_append]
    rfl
  rw [hsignals]
  exact h.append_quiet hevents

theorem hears_perform_quiet {home : ObjectPath} (h : Hears home c.signals known) {seat : Nat}
    {e : Effect} (he : e.IsQuiet) (hperform : c.perform seat e = .ok c₁) :
    Hears home c₁.signals known := by
  cases e with
  | report r =>
    obtain ⟨s, hs, rfl⟩ := settle_cases (Except.mapError_eq_ok.mp hperform)
    refine hears_quiet h rfl ?_
    cases r with
    | newChannels batch => exact he.elim
    | closed path => exact he.elim
    | alreadySatisfied token channel =>
      obtain ⟨⟨p, l⟩, -, hs⟩ := Except.bind_eq_ok.mp hs
      cases hm : p.method <;> simp only [hm] at hs <;> cases hs <;> simp [signalsIn]
    | failed token e =>
      obtain ⟨⟨p, l⟩, -, hs⟩ := Except.bind_eq_ok.mp hs
      cases hs
      simp [signalsIn]
  | signal path s =>
    cases hperform
    refine hears_quiet h rfl fun s' hs' => ?_
    obtain rfl := List.mem_singleton.mp hs'
    exact he
  | called call =>
    cases hperform
    exact hears_quiet h rfl (by simp [signalsIn])

theorem hears_perform_announce (h : Hears c.names.path c.signals known) {seat : Nat}
    {batch : List (ChannelDetails × List RequestToken)} (hnodup : (batch.map (·.1.path)).Nodup)
    (hnew : ∀ p ∈ batch.map (·.1.path), p ∉ known)
    (hperform : c.perform seat (.report (.newChannels batch)) = .ok c₁) :
    Hears c.names.path c₁.signals (known.union (.ofList (batch.map (·.1.path)))) := by
  obtain ⟨s, hs, rfl⟩ := settle_cases (Except.mapError_eq_ok.mp hperform)
  rw [signals_record]
  cases batch with
  | nil =>
    -- Nothing new is not announced at all.
    cases hs
    have hsame : known.union (.ofList []) = known := SortedSet.ext_mem fun p => by simp
    rw [List.map_nil, hsame]
    exact h.append_quiet (by simp [signalsIn])
  | cons entry batch =>
    obtain ⟨claimed, hclaim, hs⟩ := Except.bind_eq_ok.mp hs
    cases hs
    have hpaths : (entry :: batch).map (·.1.path) = claimed.1.map (·.channel.path) := by
      have hchannels := congrArg (List.map ChannelDetails.path)
        (RequestLedger.channels_of_claimBatch hclaim)
      rw [List.map_map, List.map_map] at hchannels
      exact hchannels.symm
    rw [RequestLedger.signalsIn_announce, hpaths]
    exact h.announce (hpaths ▸ hnodup) (hpaths ▸ hnew)

theorem hears_perform_close (h : Hears c.names.path c.signals known) {seat : Nat}
    {p : ObjectPath} (hp : p ∈ known)
    (hperform : [Effect.signal p .closed, .report (.closed p)].foldlM (perform seat) c = .ok c₁) :
    Hears c.names.path c₁.signals (known.erase p) := by
  cases hperform
  have hsaid : (c.record [.signal p .closed]).signals = c.signals ++ [(p, .closed)] :=
    signals_record c _
  have hclosed := h.close hp
  rw [List.append_cons, ← hsaid] at hclosed
  rwa [signals_record]

/-- Effects that come from one set of known paths to another come to the same by their signals. -/
theorem hears_performAll {seat : Nat} {effects : List Effect} (hvoices : Voices start effects known)
    (h : Hears c.names.path c.signals start)
    (hperform : effects.foldlM (perform seat) c = .ok c₁) :
    Hears c.names.path c₁.signals known := by
  induction hvoices generalizing c₁ with
  | silence =>
    cases hperform
    exact h
  | quiet _ he ih =>
    rw [List.foldlM_append] at hperform
    obtain ⟨c', hfirst, hlast⟩ := Except.bind_eq_ok.mp hperform
    obtain ⟨c'', hlast, hdone⟩ := Except.bind_eq_ok.mp (by rwa [List.foldlM_cons] at hlast)
    cases hdone
    exact hears_perform_quiet (ih hfirst) he hlast
  | announce _ hnodup hnew ih =>
    rw [List.foldlM_append] at hperform
    obtain ⟨c', hfirst, hlast⟩ := Except.bind_eq_ok.mp hperform
    obtain ⟨c'', hlast, hdone⟩ := Except.bind_eq_ok.mp (by rwa [List.foldlM_cons] at hlast)
    cases hdone
    have hheard := ih hfirst
    rw [← names_performAll hfirst] at hheard ⊢
    exact hears_perform_announce hheard hnodup hnew hlast
  | close _ hp ih =>
    rw [List.foldlM_append] at hperform
    obtain ⟨c', hfirst, hlast⟩ := Except.bind_eq_ok.mp hperform
    have hheard := ih hfirst
    rw [← names_performAll hfirst] at hheard ⊢
    exact hears_perform_close hheard hp hlast

/-! ## Stages -/

/-- Nothing is said about channels, and nothing happens to managers. -/
structure Hushed (c c' : Connection σ ρ) : Prop where
  names : c'.names = c.names
  managers : c'.managers = c.managers
  tables : c.tables.Evolves c'.tables
  /-- A connection that is gone does not come back. -/
  living : c'.status ≠ .disconnected → c.status ≠ .disconnected
  events : ∃ events, c'.log = c.log ++ events ∧ ∀ s ∈ signalsIn events, s.2.IsQuiet

/-- Nothing is said at all. -/
theorem unsaid {log : List Event} :
    ∃ events, log = log ++ events ∧ ∀ s ∈ signalsIn events, s.2.IsQuiet :=
  ⟨[], (List.append_nil _).symm, nofun⟩

theorem hushed_record (c : Connection σ ρ) {events : List Event}
    (h : ∀ s ∈ signalsIn events, s.2.IsQuiet) : c.Hushed (c.record events) :=
  ⟨rfl, rfl, .refl _, id, events, rfl, h⟩

theorem OnBus.hushed (h : c.OnBus c₁) : c.Hushed c₁ := by
  obtain ⟨events, hlog, hnone⟩ := h.events
  refine ⟨?_, ?_, ?_, ?_, events, hlog, fun s hs => ?_⟩
  · rw [h.frame]
  · rw [h.frame]
  · rw [h.frame]
    exact .refl _
  · rw [h.frame]
    exact id
  · obtain ⟨e, he, hsignal⟩ := List.mem_filterMap.mp hs
    split at hsignal
    · exact absurd he (hnone _ _)
    · cases hsignal

theorem quiet_of_plain {events : List Event} (h : ∀ e ∈ events, e.IsPlain) :
    ∀ s ∈ signalsIn events, s.2.IsQuiet := by
  intro s hs
  obtain ⟨e, he, hsignal⟩ := List.mem_filterMap.mp hs
  split at hsignal
  case h_1 path s' =>
    cases hsignal
    have hplain := h _ he
    cases s' with
    | statusChanged status reason => trivial
    | _ => exact hplain.elim
  case h_2 => cases hsignal

/-- News about the local user say nothing about channels. -/
theorem quiet_selfNews (c : Connection σ ρ) (h : Handle) :
    ∀ s ∈ signalsIn (c.selfNews h), s.2.IsQuiet := by
  intro s hs
  obtain ⟨e, he, hsignal⟩ := List.mem_filterMap.mp hs
  rw [(mem_selfNews he).2] at hsignal
  cases hsignal
  trivial

/-- Only in the turn of a manager or by a report anything is said about channels. -/
theorem Stage.hushed (h : Stage c₀ op c c₁) :
    c.Hushed c₁ ∨
      (∃ seat m t, c.managers[seat]? = some m ∧ m.Ends c₀ op seat c.status c.tables t ∧
        c.takeTurn seat t = .ok c₁) ∨
      ∃ r, op = .report r := by
  cases h with
  | turn hm ht hturn => exact .inr (.inl ⟨_, _, _, hm, ht, hturn⟩)
  | @settle _ r hop hsettle => exact .inr (.inr ⟨r, hop⟩)
  | register hop => exact .inl (onBus_register c).hushed
  | loseName hop => exact .inl (onBus_loseName c).hushed
  | losePath hop => exact .inl (onBus_losePath c).hushed
  | leave hgone hover => exact .inl (onBus_leave c).hushed
  | say hplain => exact .inl (hushed_record c (quiet_of_plain hplain))
  | status hroute hself =>
    exact .inl ⟨rfl, rfl, .refl _, fun _ => Status.ne_disconnected_of_route hroute, unsaid⟩
  | account hevolves hexchanges => exact .inl ⟨rfl, rfl, hevolves, id, unsaid⟩
  | @setSelf name h hop hstatus hvalid =>
    exact .inl ⟨rfl, rfl, HandleTables.evolves_exchangeContacts _ _ _, id, _, rfl,
      quiet_selfNews c h⟩
  | forgetSelf hgone =>
    exact .inl ⟨rfl, rfl, HandleTables.evolves_exchangeContacts _ _ _, id, unsaid⟩
  | _ => exact .inl ⟨rfl, rfl, .refl _, id, unsaid⟩

/-! ## Listening to a contact list -/

/-- The only manager is a contact list over `server`, and whoever hears the signals knows the
channels that it has announced. -/
def Listening (server : ContactServer ρ) (c : Connection σ ρ) : Prop :=
  ∃ list data known, c.managers = [.contacts server list data] ∧
    Hears c.names.path c.signals known ∧
    ContactScene.Accounted known none ⟨list, data, c.tables, []⟩

/-- However a call to a contact list ends, its account is right. -/
theorem accounted_of_ends {list : ContactList} {data : ρ} {seat : Nat} {status : Status}
    {tables : HandleTables} {t : Turn σ ρ}
    (hends : (Manager.contacts server list data : Manager σ ρ).Ends c₀ op seat status tables t)
    (hmoves : op.MovesApart server) (hstatus : status ≠ .disconnected)
    (h : ContactScene.Accounted known none ⟨list, data, tables, []⟩) :
    ∃ s, t = Manager.close server s ∧ s.Accounted known none := by
  cases hends with
  | offer htarget => exact ⟨_, rfl, ContactScene.accounted_offer _ h⟩
  | statusChanged => exact ⟨_, rfl, (if_neg hstatus).symm ▸ h⟩
  | performContacts hop hresolve hnamed hperform =>
    cases hperform
    refine ⟨_, rfl, ContactScene.accounted_perform (fun old target hrenaming => ?_) h⟩
    rw [ContactOperation.renaming?_of_resolve hresolve] at hrenaming
    exact hmoves _ _ hop old target hrenaming
  | @changeServer _ f contacts _ _ _ _ _ hchange =>
    cases hchange
    exact ⟨⟨list, f contacts data, _, []⟩, rfl,
      h.quietly rfl (HandleTables.evolves_exchangeContacts _ _ _)
      (fun _ => rfl) (List.append_nil _).symm nofun⟩
  | changeState _ _ _ hchange => cases hchange

namespace Listening

theorem hushed (h : Listening server c) (hc : c.Hushed c₁) : Listening server c₁ := by
  obtain ⟨list, data, known, hmanagers, hhears, haccount⟩ := h
  obtain ⟨events, hlog, hquiet⟩ := hc.events
  refine ⟨list, data, known, hc.managers.trans hmanagers, ?_, ?_⟩
  · rw [hc.names]
    exact hears_quiet hhears hlog hquiet
  · exact haccount.quietly rfl hc.tables (fun _ => rfl) (List.append_nil _).symm nofun

theorem turn (h : Listening server c) {m : Manager σ ρ} {t : Turn σ ρ} {seat : Nat}
    (hm : c.managers[seat]? = some m) (hends : m.Ends c₀ op seat c.status c.tables t)
    (hmoves : op.MovesApart server) (hstatus : c.status ≠ .disconnected)
    (hturn : c.takeTurn seat t = .ok c₁) : Listening server c₁ := by
  obtain ⟨list, data, known, hmanagers, hhears, haccount⟩ := h
  obtain ⟨rfl, rfl⟩ : seat = 0 ∧ m = .contacts server list data := by
    rw [hmanagers] at hm
    cases seat with
    | zero => exact ⟨rfl, (Option.some.inj hm).symm⟩
    | succ seat => cases hm
  obtain ⟨s, rfl, haccounted⟩ := accounted_of_ends hends hmoves hstatus haccount
  obtain ⟨known', hvoices, hnext⟩ := haccounted.next
  let placed : Connection σ ρ :=
    { c with
      managers := c.managers.set 0 (Manager.close server s : Turn σ ρ).manager
      tables := s.tables }
  have hperform : s.effects.foldlM (perform 0) placed = .ok c₁ := hturn
  refine ⟨s.list, s.server, known', ?_, ?_, hnext _ (sustains_performAll hperform).evolves⟩
  · rw [(takeTurn_eq_ok hturn).2.1, hmanagers]
    rfl
  · rw [names_performAll hperform]
    exact hears_performAll hvoices hhears hperform

/-- No stage of an operation ends it, unless it is the end of the connection. -/
theorem stage (hreport : ∀ r, op ≠ .report r) (hmoves : op.MovesApart server)
    (hstage : Stage c₀ op c c₁) (hstatus : c₁.status ≠ .disconnected) :
    c.status ≠ .disconnected ∧ (Listening server c → Listening server c₁) := by
  rcases hstage.hushed with hc | ⟨seat, m, t, hm, hends, hturn⟩ | ⟨r, hop⟩
  · exact ⟨hc.living hstatus, fun h => h.hushed hc⟩
  · rw [(served_takeTurn hturn).status] at hstatus
    exact ⟨hstatus, fun h => h.turn hm hends hmoves hstatus hturn⟩
  · exact absurd hop (hreport r)

theorem step (hreport : ∀ r, op ≠ .report r) (hmoves : op.MovesApart server)
    {out : StepOutcome σ ρ} (hstep : c.step op = .ok out) (hstatus : out.2.status ≠ .disconnected) :
    c.status ≠ .disconnected ∧ (Listening server c → Listening server out.2) :=
  (stages_step hstep).rel
    (R := fun c c₁ : Connection σ ρ => c₁.status ≠ .disconnected →
      c.status ≠ .disconnected ∧ (Listening server c → Listening server c₁))
    (fun _ hstatus => ⟨hstatus, id⟩)
    (fun h h' hstatus => ⟨(h (h' hstatus).1).1, fun hc => (h' hstatus).2 ((h (h' hstatus).1).2 hc)⟩)
    (fun hstage => stage hreport hmoves hstage) hstatus

theorem run {ops : List (Operation σ ρ)} (hreports : ∀ r, .report r ∉ ops)
    (hmoves : ∀ op ∈ ops, op.MovesApart server) (hrun : c.run ops = .ok c₁)
    (hstatus : c₁.status ≠ .disconnected) :
    c.status ≠ .disconnected ∧ (Listening server c → Listening server c₁) := by
  induction ops generalizing c with
  | nil =>
    cases hrun
    exact ⟨hstatus, id⟩
  | cons op ops ih =>
    obtain ⟨out, hstep, hrest⟩ := run_cons.mp hrun
    obtain ⟨hliving, hlast⟩ := ih (fun r hr => hreports r (List.mem_cons_of_mem _ hr))
      (fun op hop => hmoves op (List.mem_cons_of_mem _ hop)) hrest
    obtain ⟨hstarted, hfirst⟩ := step (fun r hr => hreports r (hr ▸ List.mem_cons_self))
      (hmoves op List.mem_cons_self) hstep hliving
    exact ⟨hstarted, fun h => hlast (hfirst h)⟩

end Listening

/-- A new connection has announced nothing. -/
theorem listening_new (backend : Backend) (config : Config) {tables : HandleTables}
    (htables : tables.Faithful) (server : ContactServer ρ) (data : ρ) :
    Listening server (new backend config tables [.contacts server data] : Connection σ ρ) := by
  let path := (Names.new config.connectionManager backend.protocol backend.account).path
  let s : ContactScene ρ := ⟨ManagerPlan.emptyList config path server.capabilities, data,
    tables.exchangeContacts (server.holds data) [], []⟩
  have hnone : ∀ p, ¬ s.Announced none p := by
    rintro p ⟨t, look, hlook | hlook, -⟩ <;> cases hlook
  have hempty : s.Accounted .empty none :=
    { arranged :=
        .of_no_channels (htables.evolves (HandleTables.evolves_exchangeContacts _ _ _)) rfl
      voiced := ⟨.empty, .silence, fun p => iff_of_false (SortedSet.not_mem_empty p) (hnone p)⟩ }
  obtain ⟨known, hvoices, hnext⟩ := hempty.openLists.next
  rw [s.effects_openLists] at hvoices
  refine ⟨s.openLists.list, s.openLists.server, .empty, rfl, .silence, ?_⟩
  exact hvoices.of_nil ▸ hnext _ (.refl _)

/-! ## The main result -/

/-- Every run of a connection whose only manager is a contact list comes to its end, if no report
comes from elsewhere. If the tables take the identifiers of lists and groups as they are, and no
group is moved to its own name, then as long as the connection is not gone, whoever listens to its
signals knows exactly the announced channels: no path is announced while it is announced already,
and none goes away that is not announced. News of channels is followed at once by that of each of
them for old clients, in the same order, and by no other; and the connection says that a channel is
gone right after the channel has said so, which it does only then. -/
theorem run_announces_channels (backend : Backend) (config : Config) {tables : HandleTables}
    (hinitial : tables.Initial)
    (hverbatim : ∀ (target : ContactTarget) t, tables.get? target.entity = some t →
      t.normalise = HandleTable.verbatim)
    (server : ContactServer ρ) (data : ρ) {ops : List (Operation σ ρ)}
    (hreports : ∀ r, .report r ∉ ops) (hmoves : ∀ op ∈ ops, op.MovesApart server) :
    ∃ c, (new backend config tables [.contacts server data]).run ops = .ok c ∧
      (c.status ≠ .disconnected →
        heard c.signals = .ofList ((c.managers.flatMap Manager.channels).map (·.path)) ∧
        (∀ before later sender channels,
          c.signals = before ++ (sender, .newChannels channels) :: later →
            sender = c.names.path ∧ (channels.map (·.path)).Nodup ∧
            (∀ d ∈ channels, d.path ∉ heard before) ∧
            (later.takeWhile (·.2.listing?.isSome)).map (fun s => (s.1, s.2.listing?)) =
              channels.map fun d => (c.names.path, some d.listing)) ∧
        (∀ before later sender path,
          c.signals = before ++ (sender, .channelClosed path) :: later →
            sender = c.names.path ∧ path ∈ heard before ∧
            before.getLast? = some (path, .closed)) ∧
        ∀ before later path, c.signals = before ++ (path, .closed) :: later →
          later.head? = some (c.names.path, .channelClosed path)) := by
  have hplans : ∀ b state, ManagerPlan.custom b state ∉
      ([.contacts server data] : List (ManagerPlan σ ρ)) :=
    fun _ _ hmem => nomatch List.mem_singleton.mp hmem
  obtain ⟨c, hrun⟩ := run_isOk backend config tables hplans hreports
  refine ⟨c, hrun, fun hstatus => ?_⟩
  have htables : tables.Faithful := ⟨fun e t ht => (hinitial e t ht).coherent, hverbatim⟩
  obtain ⟨-, hlistens⟩ := Listening.run hreports hmoves hrun hstatus
  obtain ⟨list, data', known, hmanagers, hhears, haccount⟩ :=
    hlistens (listening_new backend config htables server data)
  have hfits := hhears.fits
  refine ⟨?_, ?_, ?_, ?_⟩
  · rw [hhears.heard_eq]
    refine SortedSet.ext_mem fun p => ?_
    rw [haccount.mem_start rfl, SortedSet.mem_ofList, hmanagers, List.flatMap_cons,
      List.flatMap_nil, List.append_nil]
    rfl
  · exact fun before later sender channels hsplit => hfits before sender _ later hsplit
  · exact fun before later sender path hsplit => hfits before sender _ later hsplit
  · exact fun before later path hsplit => hfits before path _ later hsplit

/-- A connection with one contact list over a server in memory. -/
def sociable : Connection Unit MemoryRoster :=
  .new ⟨"sample", "account", [], [], none, false, fun _ _ _ => none⟩ .standard
    ⟨.onDemand .contact, none, some (.onDemand .list), some (.onDemand .group)⟩
    [.contacts (MemoryRoster.server ⟨true, true, false, true, .editable .native⟩ [] false) .empty]

theorem initial_sociable :
    HandleTables.Initial
      ⟨.onDemand .contact, none, some (.onDemand .list), some (.onDemand .group)⟩ := by
  intro e t ht
  cases e <;> cases ht
  · exact .onDemand .contact
  · exact .onDemand .list
  · exact .onDemand .group

/-- The roster arrives, and a group comes into being and is renamed. -/
def renamingTo (name : String) : List (Operation Unit MemoryRoster) :=
  [.contacts 0 .received, .contacts 0 (.groupsCreated ["friends"]),
    .contacts 0 (.groupRenamed "friends" name)]

/-- After a group was renamed, whoever listens knows the four lists and the group by its new
name. -/
theorem renaming_group_known :
    ∃ c, sociable.run (renamingTo "pals") = .ok c ∧
      (c.managers.flatMap Manager.channels).length = 5 ∧
      heard c.signals = .ofList ((c.managers.flatMap Manager.channels).map (·.path)) := by
  have hmoves : ∀ op ∈ renamingTo "pals", op.MovesApart
      (MemoryRoster.server ⟨true, true, false, true, .editable .native⟩ [] false) := by
    intro op hop seat named heq old target hrenaming
    simp only [renamingTo, List.mem_cons, List.not_mem_nil, or_false] at hop
    rcases hop with rfl | rfl | rfl <;> cases heq <;> cases hrenaming
    decide
  obtain ⟨c, hrun, hknows⟩ := run_announces_channels _ _ initial_sociable
    (fun target t ht => by cases target <;> cases ht <;> rfl) _ .empty (by simp [renamingTo]) hmoves
  have heval : ((sociable.run (renamingTo "pals")).toOption.any fun c =>
      c.status ≠ .disconnected && (c.managers.flatMap Manager.channels).length = 5) = true := by
    decide +kernel
  obtain ⟨c', hrun', hc⟩ := Except.eq_ok_of_any heval
  cases hrun.symm.trans hrun'
  rw [Bool.and_eq_true, decide_eq_true_iff, decide_eq_true_iff] at hc
  exact ⟨c, hrun', hc.2, (hknows hc.1).1⟩

/-- A group that is renamed to its own name is announced while clients know it already, and then it
is said to be gone though its channel is still there. -/
theorem renaming_to_itself_forgotten :
    ∃ c d, sociable.run (renamingTo "friends") = .ok c ∧ c.status ≠ .disconnected ∧
      d ∈ c.managers.flatMap Manager.channels ∧ d.path ∉ heard c.signals := by
  have heval : ((sociable.run (renamingTo "friends")).toOption.any fun c =>
      c.status ≠ .disconnected && (c.managers.flatMap Manager.channels).any fun d =>
        c.signals.getLast? = some (c.names.path, .channelClosed d.path)) = true := by
    decide +kernel
  obtain ⟨c, hrun, hc⟩ := Except.eq_ok_of_any heval
  rw [Bool.and_eq_true, decide_eq_true_iff, List.any_eq_true] at hc
  obtain ⟨hstatus, d, hd, hlast⟩ := hc
  obtain ⟨before, hsignals⟩ := List.getLast?_eq_some_iff.mp (of_decide_eq_true hlast)
  refine ⟨c, d, hrun, hstatus, hd, ?_⟩
  rw [hsignals, heard_append]
  exact fun hmem => (SortedSet.mem_erase.mp hmem).2 rfl

end Connection

end Telepathy
