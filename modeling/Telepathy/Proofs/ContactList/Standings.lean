import Telepathy.Proofs.ContactList.Vacancy
import Telepathy.Proofs.Group.Batch
import Telepathy.Proofs.Handle.Growth

set_option autoImplicit false

/-!
# Who is where on a contact list

What clients see of a contact list comes down to which channels there are and what each contact is
on each channel. Opening a channel changes only the first, a batch changes only the second, and
neither calls the server nor takes an identifier away from the handle tables.
-/

namespace Telepathy

theorem ServerAnswer.error?_eq_none {answer : ServerAnswer} {m : Mutation} :
    answer.error? m = none ↔ answer = .done := by
  cases answer <;> simp [ServerAnswer.error?]

namespace Effect

/-- The call to the server that an effect reports. -/
def call? : Effect → Option ServerCall
  | called call => some call
  | report _ | signal _ _ => none

/-- The channels that an effect tells clients of. -/
def announced? : Effect → Option (List ChannelDetails)
  | report (.newChannels batch) => some (batch.map Prod.fst)
  | report _ | signal _ _ | called _ => none

end Effect

namespace ContactList

/-- What a contact is on the channel of a target. -/
def standing? (l : ContactList) (t : ContactTarget) (h : Handle) : Option Standing :=
  (l.channels.get? t).bind fun c => c.membership.standings.get? h

/-- No client knows of any channel. -/
def Unannounced (l : ContactList) : Prop := ∀ t c, l.channels.get? t = some c → c.announced = false

/-- Whether there is a channel for a target. -/
def HasChannel (l : ContactList) (t : ContactTarget) : Prop := l.channels.contains t = true

theorem hasChannel_iff {l : ContactList} {t : ContactTarget} :
    l.HasChannel t ↔ ∃ c, l.channels.get? t = some c := by
  rw [HasChannel, SortedMap.contains, Option.isSome_iff_exists]

/-- A channel as it is when it is opened. -/
def freshChannel (l : ContactList) (t : ContactTarget) (h : Handle)
    (requested : Bool) : ContactChannel where
  handle := h
  path := l.pathOf t h
  membership := .new none (l.flagsOf t)
  requested
  announced := false
  queued := []

theorem mem_groupNames {l : ContactList} {name : String} :
    name ∈ l.groupNames ↔ l.HasChannel (.group name) := by
  rw [groupNames, List.mem_filterMap, HasChannel, ← SortedMap.mem_keys]
  constructor
  · rintro ⟨t, ht, hname⟩
    cases t with
    | list kind => cases hname
    | group name' =>
      cases hname
      exact ht
  · intro h
    exact ⟨_, h, rfl⟩

/-- Groups are listed by name. -/
theorem groupNames_ascending (l : ContactList) :
    l.groupNames.Pairwise fun a b => compare a b = .lt := by
  have hkeys : l.channels.keys.Pairwise fun a b => compare a b = .lt :=
    l.channels.ascending.map _ fun _ _ h => h
  refine hkeys.filterMap _ fun t t' htt' name hname name' hname' => ?_
  cases t <;> cases hname
  cases t' <;> cases hname'
  exact htt'

end ContactList

namespace ContactScene

variable {σ : Type} {server : ContactServer σ} {s s₁ s₂ : ContactScene σ}

/-- The calls to the server so far. -/
def calls (s : ContactScene σ) : List ServerCall := s.effects.filterMap Effect.call?

/-- What clients were told of so far, announcement by announcement. -/
def announcements (s : ContactScene σ) : List (List ChannelDetails) :=
  s.effects.filterMap Effect.announced?

/-- What concerns neither the server nor the clients' view of which channels there are leaves: the
server's data, the calls to it, the announcements and all identifiers. -/
structure Local (s s' : ContactScene σ) : Prop where
  server : s'.server = s.server
  calls : s'.calls = s.calls
  announcements : s'.announcements = s.announcements
  tables : s.tables.Grows s'.tables

namespace Local

theorem refl (s : ContactScene σ) : s.Local s := ⟨rfl, rfl, rfl, .refl _⟩

theorem trans (h : s.Local s₁) (h' : s₁.Local s₂) : s.Local s₂ :=
  ⟨h'.server.trans h.server, h'.calls.trans h.calls, h'.announcements.trans h.announcements,
    h.tables.trans h'.tables⟩

/-- Effects that are neither calls nor announcements may come on top. -/
theorem of_effects {effects : List Effect} (hserver : s₁.server = s.server)
    (heffects : s₁.effects = s.effects ++ effects)
    (h : ∀ e ∈ effects, e.call? = none ∧ e.announced? = none)
    (htables : s.tables.Grows s₁.tables) : s.Local s₁ := by
  refine ⟨hserver, ?_, ?_, htables⟩
  · rw [ContactScene.calls, heffects, List.filterMap_append, ContactScene.calls,
      List.filterMap_eq_nil_iff.mpr fun e he => (h e he).1, List.append_nil]
  · rw [ContactScene.announcements, heffects, List.filterMap_append, ContactScene.announcements,
      List.filterMap_eq_nil_iff.mpr fun e he => (h e he).2, List.append_nil]

theorem foldl {α : Type} {f : ContactScene σ → α → ContactScene σ}
    (hf : ∀ (s : ContactScene σ) a, s.Local (f s a)) (l : List α) (s : ContactScene σ) :
    s.Local (l.foldl f s) :=
  List.foldl_rel_of_step Local.refl Local.trans hf l s

end Local

/-! ## Batches -/

theorem local_change (s : ContactScene σ) (t : ContactTarget) (c : MembershipChange) :
    s.Local (s.change t c) := by
  unfold change updateMembership
  split
  · exact .refl s
  case h_2 ch _ =>
    refine .of_effects rfl rfl ?_ (HandleTables.grows_exchangeContacts _ _ _)
    intro e he
    obtain ⟨signal, -, rfl⟩ := List.mem_map.mp he
    exact ⟨rfl, rfl⟩

theorem hasChannel_change (s : ContactScene σ) (t t' : ContactTarget) (c : MembershipChange) :
    (s.change t c).list.HasChannel t' ↔ s.list.HasChannel t' := by
  unfold change updateMembership
  split
  · exact Iff.rfl
  case h_2 ch hch =>
    simp only [ContactList.hasChannel_iff, ContactList.put, SortedMap.get?_insert]
    by_cases ht : t' = t
    · subst ht
      simp [hch]
    · simp [ht]

theorem unannounced_change (t : ContactTarget) (c : MembershipChange) (h : s.list.Unannounced) :
    (s.change t c).list.Unannounced := by
  unfold change updateMembership
  split
  · exact h
  case h_2 ch hch =>
    intro t' c' hc'
    simp only [ContactList.put, SortedMap.get?_insert] at hc'
    split at hc'
    · cases hc'
      exact h t ch hch
    · exact h t' c' hc'

/-- Contacts moved on the channels there are. -/
structure Moves (s s' : ContactScene σ) : Prop where
  quiet : s.Local s'
  hasChannel : ∀ t, s'.list.HasChannel t ↔ s.list.HasChannel t
  unannounced : s.list.Unannounced → s'.list.Unannounced

namespace Moves

theorem refl (s : ContactScene σ) : s.Moves s := ⟨.refl s, fun _ => Iff.rfl, id⟩

theorem trans (h : s.Moves s₁) (h' : s₁.Moves s₂) : s.Moves s₂ :=
  ⟨h.quiet.trans h'.quiet, fun t => (h'.hasChannel t).trans (h.hasChannel t),
    fun hs => h'.unannounced (h.unannounced hs)⟩

end Moves

theorem moves_change (s : ContactScene σ) (t : ContactTarget) (c : MembershipChange) :
    s.Moves (s.change t c) :=
  ⟨local_change s t c, fun t' => hasChannel_change s t t' c, unannounced_change t c⟩

/-- A batch gives those whom it names the standing of their places. -/
theorem standing?_change_self {t : ContactTarget} (ht : s.list.HasChannel t)
    (c : MembershipChange) (h : Handle) :
    (s.change t c).list.standing? t h =
      (c.places.get? h).elim (s.list.standing? t h) (Standing.ofPlace? · c.provenance) := by
  obtain ⟨ch, hch⟩ := ContactList.hasChannel_iff.mp ht
  unfold change updateMembership
  rw [hch]
  simp [ContactList.standing?, ContactList.put, hch, Membership.change_get?]

/-- A batch leaves the other channels alone. -/
theorem standing?_change_ne {t t' : ContactTarget} (ht : t' ≠ t) (c : MembershipChange)
    (h : Handle) : (s.change t c).list.standing? t' h = s.list.standing? t' h := by
  unfold change updateMembership
  split
  · rfl
  · simp [ContactList.standing?, ContactList.put, SortedMap.get?_insert, ht]

section Sending

variable {α : Type} (target : α → ContactTarget) (handles : α → SortedSet Handle) (p : Place)
  (provenance : α → Provenance)

/-- Sends sets of contacts to one place, each on a channel of its own and with a provenance of its
own. -/
def sendAll (s : ContactScene σ) (l : List α) : ContactScene σ :=
  l.foldl (fun s a => s.change (target a) (.ofSet (handles a) p (provenance a))) s

theorem moves_sendAll (s : ContactScene σ) (l : List α) :
    s.Moves (s.sendAll target handles p provenance l) :=
  List.foldl_rel_of_step Moves.refl Moves.trans (fun s _ => s.moves_change _ _) l s

theorem standing?_sendAll_ne {t : ContactTarget} {l : List α} (ht : ∀ a ∈ l, t ≠ target a)
    (h : Handle) :
    (s.sendAll target handles p provenance l).list.standing? t h = s.list.standing? t h := by
  induction l generalizing s with
  | nil => rfl
  | cons a l ih =>
    exact (ih fun a ha => ht a (List.mem_cons_of_mem _ ha)).trans
      (standing?_change_ne (ht a List.mem_cons_self) _ h)

/-- Whoever is in one of the sets for a channel is there with the standing `st`, if all these sets
agree on it. -/
theorem standing?_sendAll {l : List α} {t : ContactTarget} {h : Handle} {st : Option Standing}
    (ht : s.list.HasChannel t)
    (hst : ∀ a ∈ l, t = target a → h ∈ handles a → Standing.ofPlace? p (provenance a) = st) :
    (s.sendAll target handles p provenance l).list.standing? t h =
      if ∃ a ∈ l, t = target a ∧ h ∈ handles a then st else s.list.standing? t h := by
  induction l generalizing s with
  | nil => simp [sendAll]
  | cons a l ih =>
    have hrest := ih ((hasChannel_change s (target a) t
      (.ofSet (handles a) p (provenance a))).mpr ht) fun a ha =>
        hst a (List.mem_cons_of_mem _ ha)
    rw [sendAll, List.foldl_cons, ← sendAll, hrest]
    simp only [List.mem_cons, exists_eq_or_imp]
    by_cases hlater : ∃ a ∈ l, t = target a ∧ h ∈ handles a
    · rw [if_pos hlater, if_pos (.inr hlater)]
    rw [if_neg hlater]
    by_cases hta : t = target a
    · rw [← hta, standing?_change_self ht, MembershipChange.get?_ofSet]
      by_cases hh : h ∈ handles a
      · rw [if_pos hh, if_pos (.inl ⟨rfl, hh⟩)]
        exact hst a List.mem_cons_self hta hh
      · rw [if_neg hh, if_neg fun hor => hor.elim (fun h => hh h.2) hlater]
        rfl
    · rw [standing?_change_ne hta, if_neg fun hor => hor.elim (fun h => hta h.1) hlater]

end Sending

/-! ## Channels come -/

/-- A channel that is made sure of was there, or it is put in its place as new. -/
theorem openChannel_cases {t : ContactTarget} {requested : Bool}
    (h : s.openChannel t requested = .ok s₁) :
    s₁ = s ∧ s.list.HasChannel t ∨
      s.list.channels.get? t = none ∧ ∃ r, s.tables.ensure t.entity t.name = .ok r ∧
        s₁ = { s with
          tables := r.2.retain ⟨t.entity, r.1⟩
          list := s.list.put t (s.list.freshChannel t r.1 requested) } := by
  unfold openChannel at h
  split at h
  case isTrue hthere =>
    cases h
    exact .inl ⟨rfl, hthere⟩
  case isFalse hnew =>
    split at h
    · cases h
    case h_2 handle tables hensure =>
      cases h
      exact .inr ⟨Option.not_isSome_iff_eq_none.mp hnew, _, hensure, rfl⟩

/-- What opening a channel comes to: the channel was there, or there is a new one that has nobody in
it and holds nothing but its target. -/
theorem openChannel_eq_ok {t : ContactTarget} {requested : Bool}
    (h : s.openChannel t requested = .ok s₁) :
    s₁ = s ∧ s.list.HasChannel t ∨
      ∃ r c, s.tables.ensure t.entity t.name = .ok r ∧ c.Vacant ∧
        s₁ = { s with tables := r.2.retain ⟨t.entity, r.1⟩, list := s.list.put t c } ∧
          ¬ s.list.HasChannel t ∧ c.handle = r.1 ∧ c.path = s.list.pathOf t r.1 ∧
            c.membership.holds = [] := by
  obtain ⟨rfl, hthere⟩ | ⟨hnone, r, hensure, rfl⟩ := openChannel_cases h
  · exact .inl ⟨rfl, hthere⟩
  · exact .inr ⟨r, _, hensure, ⟨rfl, rfl⟩, rfl, Option.not_isSome_iff_eq_none.mpr hnone, rfl, rfl,
      rfl⟩

theorem openChannel_isOk {t : ContactTarget} (h : s.tables.Gives t.entity t.name)
    (requested : Bool) : ∃ s₁, s.openChannel t requested = .ok s₁ := by
  obtain ⟨r, hr⟩ := h
  unfold openChannel
  split
  · exact ⟨_, rfl⟩
  · rw [hr]
    exact ⟨_, rfl⟩

theorem tryOpen_cases (s : ContactScene σ) (t : ContactTarget) :
    s.tryOpen t = s ∨
      ∃ r c, s.tables.ensure t.entity t.name = .ok r ∧ c.Vacant ∧
        s.tryOpen t = { s with tables := r.2.retain ⟨t.entity, r.1⟩, list := s.list.put t c } ∧
          ¬ s.list.HasChannel t := by
  unfold tryOpen
  cases hopen : s.openChannel t false with
  | error e => exact .inl rfl
  | ok s₁ =>
    rcases openChannel_eq_ok hopen with ⟨rfl, -⟩ | ⟨r, c, hensure, hvacant, hnew, habsent, -⟩
    · exact .inl rfl
    · exact .inr ⟨r, c, hensure, hvacant, hnew, habsent⟩

theorem local_tryOpen (s : ContactScene σ) (t : ContactTarget) : s.Local (s.tryOpen t) := by
  rcases s.tryOpen_cases t with hsame | ⟨r, c, hensure, -, hnew, -⟩
  · rw [hsame]
    exact .refl s
  · rw [hnew]
    exact ⟨rfl, rfl, rfl,
      (HandleTables.grows_ensure hensure).trans (HandleTables.grows_retain _ _)⟩

theorem hasChannel_tryOpen {t : ContactTarget} (h : s.tables.Gives t.entity t.name)
    (t' : ContactTarget) :
    (s.tryOpen t).list.HasChannel t' ↔ t' = t ∨ s.list.HasChannel t' := by
  obtain ⟨s₁, hopen⟩ := openChannel_isOk h false
  have htry : s.tryOpen t = s₁ := by
    unfold tryOpen
    rw [hopen]
  rw [htry]
  rcases openChannel_eq_ok hopen with ⟨rfl, hthere⟩ | ⟨r, c, -, -, rfl, -⟩
  · constructor
    · exact .inr
    · rintro (rfl | h)
      · exact hthere
      · exact h
  · simp only [ContactList.hasChannel_iff, ContactList.put, SortedMap.get?_insert]
    by_cases ht : t' = t
    · simp [ht]
    · simp [ht]

/-- Nobody is in a new channel. -/
theorem standing?_tryOpen (s : ContactScene σ) (t t' : ContactTarget) (h : Handle) :
    (s.tryOpen t).list.standing? t' h = s.list.standing? t' h := by
  rcases s.tryOpen_cases t with hsame | ⟨r, c, -, hvacant, hnew, habsent⟩
  · rw [hsame]
  · rw [hnew]
    simp only [ContactList.standing?, ContactList.put, SortedMap.get?_insert]
    by_cases ht : t' = t
    · subst ht
      have hnone : s.list.channels.get? t' = none := by
        cases hget : s.list.channels.get? t' with
        | none => rfl
        | some c => exact absurd (ContactList.hasChannel_iff.mpr ⟨c, hget⟩) habsent
      simp [hvacant.empty, hnone]
    · simp [ht]

theorem contact_tryOpen (s : ContactScene σ) (t : ContactTarget) :
    (s.tryOpen t).tables.contact = s.tables.contact := by
  rcases s.tryOpen_cases t with hsame | ⟨r, c, hensure, -, hnew, -⟩
  · rw [hsame]
  · rw [hnew]
    have hentity : t.entity ≠ .contact := by cases t <;> simp [ContactTarget.entity]
    have hretain : (r.2.retain ⟨t.entity, r.1⟩).contact = r.2.contact := by cases t <;> rfl
    exact hretain.trans (HandleTables.contact_ensure hensure hentity)

/-- Opening several channels adds just these. -/
theorem hasChannel_tryOpenAll {α : Type} (target : α → ContactTarget) {l : List α}
    (h : ∀ a ∈ l, s.tables.Gives (target a).entity (target a).name) (t : ContactTarget) :
    (l.foldl (fun s a => s.tryOpen (target a)) s).list.HasChannel t ↔
      (∃ a ∈ l, t = target a) ∨ s.list.HasChannel t := by
  induction l generalizing s with
  | nil => simp
  | cons a l ih =>
    have hrest : ∀ a' ∈ l,
        (s.tryOpen (target a)).tables.Gives (target a').entity (target a').name :=
      fun a' ha' => (local_tryOpen s _).tables.gives (h a' (List.mem_cons_of_mem _ ha'))
    rw [List.foldl_cons, ih hrest, hasChannel_tryOpen (h a List.mem_cons_self)]
    simp only [List.mem_cons, exists_eq_or_imp]
    constructor
    · rintro (h | h | h)
      · exact .inl (.inr h)
      · exact .inl (.inl h)
      · exact .inr h
    · rintro ((h | h) | h)
      · exact .inr (.inl h)
      · exact .inl h
      · exact .inr (.inr h)

/-- Opening a channel adds no other, even if its table gives no handle. -/
theorem hasChannel_of_tryOpen {t t' : ContactTarget} (h : (s.tryOpen t).list.HasChannel t') :
    t' = t ∨ s.list.HasChannel t' := by
  by_cases ht : t' = t
  · exact .inl ht
  · rcases s.tryOpen_cases t with hsame | ⟨r, c, -, -, hnew, -⟩
    · rw [hsame] at h
      exact .inr h
    · rw [hnew] at h
      simp only [ContactList.hasChannel_iff, ContactList.put, SortedMap.get?_insert,
        if_neg ht] at h
      exact .inr (ContactList.hasChannel_iff.mpr h)

theorem hasChannel_of_tryOpenAll {α : Type} (target : α → ContactTarget) {l : List α}
    {t : ContactTarget} (h : (l.foldl (fun s a => s.tryOpen (target a)) s).list.HasChannel t) :
    (∃ a ∈ l, t = target a) ∨ s.list.HasChannel t := by
  induction l generalizing s with
  | nil => exact .inr h
  | cons a l ih =>
    rcases ih h with ⟨a', ha', ht⟩ | hthere
    · exact .inl ⟨a', List.mem_cons_of_mem _ ha', ht⟩
    · rcases hasChannel_of_tryOpen hthere with ht | hold
      · exact .inl ⟨a, List.mem_cons_self, ht⟩
      · exact .inr hold

/-! ## Channels go -/

theorem local_close (s : ContactScene σ) (t : ContactTarget) (c : ContactChannel) (e : Error) :
    s.Local (s.close t c e) := by
  have hfailed : s.Local (s.fail c.queued e) := by
    refine .of_effects rfl rfl ?_ (.refl _)
    intro effect he
    obtain ⟨token, -, rfl⟩ := List.mem_map.mp he
    exact ⟨rfl, rfl⟩
  have hreleased : s.Local ((s.fail c.queued e).releaseChannel t c) :=
    hfailed.trans ⟨rfl, rfl, rfl,
      (HandleTables.grows_release _ _).trans (HandleTables.grows_exchangeContacts _ _ _)⟩
  unfold close
  simp only
  split
  · refine hreleased.trans (.of_effects rfl (List.append_assoc _ _ _) ?_ (.refl _))
    simp [Effect.call?, Effect.announced?]
  · exact hreleased

theorem local_abandonGroup (e : Error) (s : ContactScene σ) (name : String) :
    s.Local (s.abandonGroup e name) := by
  unfold abandonGroup
  split
  · exact .refl s
  case h_2 c _ =>
    have hdetached : s.Local (s.detach (.group name)) := ⟨rfl, rfl, rfl, .refl _⟩
    exact hdetached.trans (local_close _ _ c e)

theorem get?_abandonGroup (e : Error) (s : ContactScene σ) (name : String) (t : ContactTarget) :
    (s.abandonGroup e name).list.channels.get? t =
      if t = .group name then none else s.list.channels.get? t := by
  unfold abandonGroup
  split
  case h_1 hnone =>
    by_cases ht : t = .group name
    · rw [if_pos ht, ht]
      exact hnone
    · rw [if_neg ht]
  case h_2 =>
    rw [list_close]
    exact SortedMap.get?_erase _ _ _

/-- Groups that will not come to be have no channels, and the others keep theirs. -/
theorem get?_abandonGroups (e : Error) (names : List String) (s : ContactScene σ)
    (t : ContactTarget) :
    (names.foldl (abandonGroup e) s).list.channels.get? t =
      if ∃ name ∈ names, t = .group name then none else s.list.channels.get? t := by
  induction names generalizing s with
  | nil => simp
  | cons name names ih =>
    rw [List.foldl_cons, ih, get?_abandonGroup]
    simp only [List.mem_cons, exists_eq_or_imp]
    by_cases hlater : ∃ name ∈ names, t = .group name
    · simp [hlater]
    · by_cases hnow : t = .group name <;> simp [hlater, hnow]

end ContactScene

end Telepathy
