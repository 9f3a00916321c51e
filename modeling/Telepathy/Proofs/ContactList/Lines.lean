import Telepathy.Proofs.ContactList.Announcements
import Telepathy.Proofs.ContactList.Offers
import Telepathy.Proofs.ContactList.Tidy
import Telepathy.Proofs.Request.Owners

set_option autoImplicit false

/-!
# Who is first in line

Requests for a channel that clients do not know wait in line. One that insists on a new channel is
put in line only where it opens the channel, so it is the first, and it is for a group, since lists
are there already. Apart from requests nobody joins a line: an operation leaves it as it is or ends
it. So whenever channels are announced, one request at most insists on each of them.
-/

namespace Telepathy

/-- A line of requests for a channel, where some of the tokens issued so far insist on a new
channel. -/
structure InLine (insists : RequestToken → Prop) (issued : Nat) (t : ContactTarget)
    (tokens : List RequestToken) : Prop where
  first : ∀ token ∈ tokens.tail, ¬insists token
  group : ∀ token ∈ tokens, insists token → t.entity = .group
  issued : ∀ token ∈ tokens, token.number ≤ issued

namespace InLine

variable {insists : RequestToken → Prop} {issued : Nat} {t : ContactTarget}
  {tokens : List RequestToken} {token : RequestToken}

theorem nil : InLine insists issued t [] := ⟨by simp, by simp, by simp⟩

/-- Whoever insists on a new channel joins only a line in which nobody waits. -/
theorem join (h : InLine insists issued t tokens) (hissued : token.number ≤ issued)
    (hfirst : insists token → tokens = [] ∧ t.entity = .group) :
    InLine insists issued t (tokens ++ [token]) where
  first token' ht := by
    cases tokens with
    | nil => cases ht
    | cons head tail =>
      rcases List.mem_append.mp ht with ht | ht
      · exact h.first token' ht
      · obtain rfl := List.mem_singleton.mp ht
        exact fun hinsists => List.cons_ne_nil _ _ (hfirst hinsists).1
  group token' ht hinsists := by
    rcases List.mem_append.mp ht with ht | ht
    · exact h.group token' ht hinsists
    · obtain rfl := List.mem_singleton.mp ht
      exact (hfirst hinsists).2
  issued token' ht := by
    rcases List.mem_append.mp ht with ht | ht
    · exact h.issued token' ht
    · obtain rfl := List.mem_singleton.mp ht
      exact hissued

/-- A line is one still if others insist, of whom none waits there. -/
theorem transfer {insists' : RequestToken → Prop} {issued' : Nat}
    (h : InLine insists issued t tokens) (hissued : issued ≤ issued')
    (hinsists : ∀ token, token.number ≤ issued → insists' token → insists token) :
    InLine insists' issued' t tokens where
  first token ht h' :=
    h.first token ht (hinsists token (h.issued token (List.mem_of_mem_tail ht)) h')
  group token ht h' := h.group token ht (hinsists token (h.issued token ht) h')
  issued token ht := Nat.le_trans (h.issued token ht) hissued

/-- Whoever insists on a new channel has nobody before it, and waits for a group. -/
theorem split {before after : List RequestToken}
    (h : InLine insists issued t (before ++ token :: after)) (hinsists : insists token) :
    before = [] ∧ ∃ name, t = .group name := by
  constructor
  · cases before with
    | nil => rfl
    | cons head tail => exact absurd hinsists (h.first token (by simp))
  · have hgroup := h.group token (by simp) hinsists
    cases t with
    | list k => cases hgroup
    | group name => exact ⟨name, rfl⟩

end InLine

/-- In all lines of a contact list, whoever insists on a new channel is first. -/
def ContactList.Lined (insists : RequestToken → Prop) (issued : Nat) (l : ContactList) : Prop :=
  ∀ t c, l.channels.get? t = some c → InLine insists issued t c.queued

/-- An effect that announces only what may be announced, and otherwise says at most that a channel
is gone. -/
def Effect.IsFair (insists : RequestToken → Prop) : Effect → Prop
  | report r => r.IsFair insists
  | signal _ s => s.IsQuiet ∨ s = .closed
  | called _ => True

namespace ContactChannel

theorem targetEntity_details (c : ContactChannel) (t : ContactTarget) :
    (c.details t).properties.get? Property.targetEntity = some (.nat t.entity.wire) := by
  simp [details, SortedMap.ofList, SortedMap.get?_insert, Property.targetEntity, Property.targetId,
    Property.targetHandle, Property.requested, Property.interfaces]

theorem targetId_details (c : ContactChannel) (t : ContactTarget) :
    (c.details t).properties.get? Property.targetId = some (.text t.name) := by
  simp [details, SortedMap.ofList, SortedMap.get?_insert, Property.targetId, Property.requested,
    Property.interfaces]

/-- Channels of different targets differ in what clients are told of them. -/
theorem details_injective {c c' : ContactChannel} {t t' : ContactTarget}
    (h : c.details t = c'.details t') : t = t' := by
  have hentity := c.targetEntity_details t
  rw [h, targetEntity_details] at hentity
  have hname := c.targetId_details t
  rw [h, targetId_details] at hname
  refine ContactTarget.ext ?_ (Value.text.inj (Option.some.inj hname)).symm
  cases t <;> cases t' <;> first | rfl | cases hentity

end ContactChannel

namespace ContactScene

variable {σ : Type} {server : ContactServer σ} {s s₁ s₂ : ContactScene σ}
  {insists : RequestToken → Prop} {issued : Nat}

/-! ## Effects -/

/-- Between two scenes, only fair effects are added. -/
def AddsFair (insists : RequestToken → Prop) (s s₁ : ContactScene σ) : Prop :=
  ∃ effects, s₁.effects = s.effects ++ effects ∧ ∀ e ∈ effects, e.IsFair insists

namespace AddsFair

theorem of_eq (h : s₁.effects = s.effects) : s.AddsFair insists s₁ :=
  ⟨[], by rw [h, List.append_nil], nofun⟩

theorem trans (h : s.AddsFair insists s₁) (h' : s₁.AddsFair insists s₂) :
    s.AddsFair insists s₂ := by
  obtain ⟨effects, heffects, hfair⟩ := h
  obtain ⟨effects', heffects', hfair'⟩ := h'
  refine ⟨effects ++ effects', by rw [heffects', heffects, List.append_assoc], fun e he => ?_⟩
  rcases List.mem_append.mp he with he | he
  · exact hfair e he
  · exact hfair' e he

theorem fail (s : ContactScene σ) (tokens : List RequestToken) (e : Error) :
    s.AddsFair insists (s.fail tokens e) := by
  refine ⟨_, rfl, fun effect he => ?_⟩
  obtain ⟨token, -, rfl⟩ := List.mem_map.mp he
  trivial

theorem change (s : ContactScene σ) (t : ContactTarget) (b : MembershipChange) :
    s.AddsFair insists (s.change t b) := by
  unfold ContactScene.change updateMembership
  split
  · exact .of_eq rfl
  case h_2 c hc =>
    refine ⟨_, rfl, fun e he => ?_⟩
    have hquiet := isQuiet_change c.membership b c.path e he
    obtain ⟨signal, -, rfl⟩ := List.mem_map.mp he
    exact .inl hquiet

theorem close (s : ContactScene σ) (t : ContactTarget) (c : ContactChannel) (e : Error) :
    s.AddsFair insists (s.close t c e) := by
  have hfailed : s.AddsFair insists ((s.fail c.queued e).releaseChannel t c) :=
    (fail s c.queued e).trans (.of_eq rfl)
  unfold ContactScene.close
  dsimp only
  split
  · refine hfailed.trans ⟨[_, _], List.append_assoc _ _ _, fun effect he => ?_⟩
    rcases List.mem_cons.mp he with rfl | he
    · exact .inr rfl
    · obtain rfl := List.mem_singleton.mp he
      trivial
  · exact hfailed

theorem dismiss (s : ContactScene σ) (t : ContactTarget) (c : ContactChannel)
    (reason : ChangeReason) (e : Error) : s.AddsFair insists (s.dismiss t c reason e) := by
  unfold ContactScene.dismiss
  dsimp only
  refine trans ⟨_, rfl, fun effect he => ?_⟩ (close _ t _ e)
  have hquiet := isQuiet_change c.membership _ c.path effect he
  obtain ⟨signal, -, rfl⟩ := List.mem_map.mp he
  exact .inl hquiet

theorem announcePending (hs : s.list.Lined insists issued) :
    s.AddsFair insists s.announcePending := by
  unfold ContactScene.announcePending
  dsimp only
  split
  · exact .of_eq rfl
  · refine ⟨_, rfl, fun effect he => ?_⟩
    obtain rfl := List.mem_singleton.mp he
    refine ⟨?_, fun entry hentry => ?_⟩
    · rw [List.map_map, List.Nodup, List.pairwise_map]
      refine (s.list.channels.ascending.filter _).imp fun hlt heq => ?_
      rw [ContactChannel.details_injective heq, Std.ReflOrd.compare_self] at hlt
      cases hlt
    · obtain ⟨e, hmem, rfl⟩ := List.mem_map.mp hentry
      exact (hs e.1 e.2 (SortedMap.get?_eq_some_iff.mpr (List.mem_filter.mp hmem).1)).first

end AddsFair

/-! ## Operations -/

/-- It is enough that lines are left as they are or ended. -/
theorem lined_of_queues (h : s.list.Lined insists issued)
    (hqueues : ∀ t c', s₁.list.channels.get? t = some c' →
      c'.queued = [] ∨ ∃ c, s.list.channels.get? t = some c ∧ c'.queued = c.queued) :
    s₁.list.Lined insists issued := by
  intro t c' hc'
  rcases hqueues t c' hc' with hended | ⟨c, hc, hsame⟩
  · rw [hended]
    exact .nil
  · rw [hsame]
    exact h t c hc

theorem lined_openChannel {t : ContactTarget} {requested : Bool}
    (h : s.list.Lined insists issued) (hopen : s.openChannel t requested = .ok s₁) :
    s₁.list.Lined insists issued ∧ s.AddsFair insists s₁ := by
  obtain ⟨rfl, -⟩ | ⟨-, r, -, rfl⟩ := openChannel_cases hopen
  · exact ⟨h, .of_eq rfl⟩
  · refine ⟨lined_of_queues h fun t' c' hc' => ?_, .of_eq rfl⟩
    simp only [ContactList.put, SortedMap.get?_insert] at hc'
    split at hc'
    · cases hc'
      exact .inl rfl
    · exact .inr ⟨c', hc', rfl⟩

/-- No step of an operation puts anybody in line. -/
theorem Task.lined (htask : Task server s s₁) (h : s.list.Lined insists issued) :
    s₁.list.Lined insists issued ∧ s.AddsFair insists s₁ := by
  constructor
  · refine lined_of_queues h fun t c' hc' => ?_
    cases htask.origin hc' with
    | kept hc _ hqueue => exact hqueue.imp_right fun hsame => ⟨_, hc, hsame⟩
    | changed hc _ => exact .inr ⟨_, hc, rfl⟩
    | opened _ => exact .inl rfl
  · cases htask with
    | call m => exact ⟨_, rfl, fun e he => List.mem_singleton.mp he ▸ trivial⟩
    | changeList k b => exact .change s _ _
    | changeGroup name contacts hp w => exact .change s _ _
    | openList hsupported hopen => exact (lined_openChannel h hopen).2
    | openGroup hfollows hname hopen => exact (lined_openChannel h hopen).2
    | announcePending => exact .announcePending h
    | detach name => exact .of_eq rfl
    | close t c e => exact .close s t c e
    | dismiss t c reason e => exact .dismiss s t c reason e
    | arrival hpending => exact .of_eq rfl
    | lament hpending e =>
      rw [rosterFailed, if_pos hpending]
      exact AddsFair.trans (.of_eq rfl) (.fail _ _ e)

theorem lined_perform (op : ContactOperation (SortedSet Handle))
    (h : s.list.Lined insists issued) :
    (s.perform server op).2.list.Lined insists issued ∧
      s.AddsFair insists (s.perform server op).2 :=
  (tasks_perform s op).rel
    (R := fun s s₁ => s.list.Lined insists issued →
      s₁.list.Lined insists issued ∧ s.AddsFair insists s₁)
    (fun _ h => ⟨h, .of_eq rfl⟩)
    (fun h h' hs => ⟨(h' (h hs).1).1, (h hs).2.trans (h' (h hs).1).2⟩) Task.lined h

theorem lined_disconnect (s : ContactScene σ) :
    s.disconnect.list.Lined insists issued ∧ s.AddsFair insists s.disconnect := by
  obtain ⟨hlist, -, heffects⟩ := disconnect_eq s
  refine ⟨?_, _, heffects, fun effect he => ?_⟩
  · rw [hlist]
    exact fun t c hc => nomatch hc
  · obtain ⟨e, -, rfl⟩ := List.mem_map.mp he
    exact .inr rfl

/-- Before anybody can have requested a channel there are no lines. -/
theorem lined_openLists (server : ContactServer σ) (h : s.list.channels = .empty) :
    s.openLists.list.Lined insists issued := by
  have htasks : Tasks server s s.openLists := tasks_openLists s
  refine htasks.keeps (I := fun s => s.list.Lined insists issued)
    (fun htask h => (htask.lined h).1) fun t c hc => ?_
  rw [h] at hc
  cases hc

/-! ## Requests -/

section Requests

variable {r : ChannelRequest} (hissued : r.token.number ≤ issued)
  (hinsists : insists r.token → r.method = .create)

include hissued

/-- Where a request opens a channel, it is the first in line. -/
theorem inLine_join {t : ContactTarget} {requested : Bool} {c : ContactChannel}
    (h : s.list.Lined insists issued) (hopen : s.openChannel t requested = .ok s₁)
    (hc : s₁.list.channels.get? t = some c)
    (hfirst : insists r.token → s.list.channels.get? t = none ∧ t.entity = .group) :
    InLine insists issued t (c.queued ++ [r.token]) := by
  refine ((lined_openChannel h hopen).1 t c hc).join hissued fun hi => ⟨?_, (hfirst hi).2⟩
  obtain ⟨rfl, hthere⟩ | ⟨-, found, -, rfl⟩ := openChannel_cases hopen
  · rw [(hfirst hi).1] at hc
    cases hc
  · rw [ContactList.put, SortedMap.get?_insert_self] at hc
    cases hc
    rfl

include hinsists

/-- A request joins a line or is reported on, and whoever insists on a new channel joins no line
but that of a group that it opens. -/
theorem lined_offer (h : s.list.Lined insists issued) :
    (s.offer server r).2.list.Lined insists issued ∧
      (s.AddsFair insists (s.offer server r).2 ∨
        ∃ channel, (s.offer server r).2.effects =
          s.effects ++ [.report (.alreadySatisfied r.token channel)]) := by
  have hoffered := offered_offer server s r
  generalize s.offer server r = out at hoffered
  cases hoffered with
  | declined => exact ⟨h, .inl (.of_eq rfl)⟩
  | refused e => exact ⟨h, .inl (.fail s _ e)⟩
  | denied name e =>
    refine ⟨h, .inl (AddsFair.trans ?_ (.fail _ _ e))⟩
    exact ⟨_, rfl, fun e he => List.mem_singleton.mp he ▸ trivial⟩
  | known hc hknown hmethod => exact ⟨h, .inr ⟨_, rfl⟩⟩
  | @waits s₁ t requested c ht hopen hc hunknown hmethod =>
    obtain ⟨hopened, hadds⟩ := lined_openChannel h hopen
    refine ⟨fun t' c' hc' => ?_, .inl (hadds.trans (.of_eq rfl))⟩
    simp only [ContactList.put, SortedMap.get?_insert] at hc'
    split at hc'
    case isTrue heq =>
      cases hc'
      subst heq
      refine inLine_join hissued h hopen hc fun hi => ⟨hmethod (hinsists hi), ?_⟩
      cases t' with
      | list k => exact absurd (hinsists hi) ht.2
      | group name => rfl
    case isFalse => exact hopened t' c' hc'
  | @granted s₁ name ht hnone hreceived hopen =>
    have hcalled : (s.call server (.createGroups [name])).2.list.Lined insists issued := h
    obtain ⟨hopened, hadds⟩ := lined_openChannel hcalled hopen
    have hcall : s.AddsFair insists (s.call server (.createGroups [name])).2 :=
      ⟨_, rfl, fun e he => List.mem_singleton.mp he ▸ trivial⟩
    unfold announceFor
    split
    · exact ⟨hopened, .inl (hcall.trans hadds)⟩
    case h_2 c hc =>
      have hline := inLine_join hissued hcalled hopen hc fun _ => ⟨hnone, rfl⟩
      refine ⟨fun t' c' hc' => ?_, .inl ((hcall.trans hadds).trans ⟨_, rfl, fun e he => ?_⟩)⟩
      · simp only [emit, ContactList.put, SortedMap.get?_insert] at hc'
        split at hc'
        · cases hc'
          exact .nil
        · exact hopened t' c' hc'
      · obtain rfl := List.mem_singleton.mp he
        refine ⟨by simp, fun entry hentry => ?_⟩
        obtain rfl := List.mem_singleton.mp hentry
        exact hline.first

end Requests

end ContactScene

end Telepathy
