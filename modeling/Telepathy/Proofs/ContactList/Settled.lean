import Telepathy.Proofs.ContactList.Deeds
import Telepathy.Proofs.ContactList.InitialRoster
import Telepathy.Proofs.ContactList.Learning

set_option autoImplicit false

/-!
# When nothing waits for the roster any more

A contact list announces all its channels when the roster arrives, and whatever is opened later is
announced by the deed that opens it. The exception are lists: a request for a list opens its channel
without announcing it, on the understanding that the list was opened when the roster arrived. So
once the roster is there, every group is announced and no request waits for one; the same goes for
the lists if all that the protocol has were opened in time; and this stays so.
-/

namespace Telepathy

namespace ContactList

/-- No request waits for a channel that clients know of. -/
def Prompt (l : ContactList) : Prop :=
  ∀ t c, l.channels.get? t = some c → c.announced = true → c.queued = []

/-- Clients know of every channel whose target satisfies `Q`, and no request waits for one. -/
def Told (Q : ContactTarget → Prop) (l : ContactList) : Prop :=
  ∀ t c, l.channels.get? t = some c → Q t → c.announced = true ∧ c.queued = []

/-- The roster is there, and so are the lists that the protocol has; nothing waits any more. As to
lists and channels, only targets with `Q` count. -/
structure Settled (Q : ContactTarget → Prop) (l : ContactList) : Prop where
  received : l.roster = .received
  lists : ∀ k, Q (.list k) → k.isSupported l.capabilities = true → l.HasChannel (.list k)
  prompt : l.Prompt
  told : l.Told Q

theorem Told.queuedTokens {l : ContactList} (h : l.Told fun _ => True) : l.queuedTokens = [] := by
  refine List.eq_nil_iff_forall_not_mem.mpr fun token htoken => ?_
  obtain ⟨t, c, hc, hwaits⟩ := mem_queuedTokens.mp htoken
  rw [(h t c hc trivial).2] at hwaits
  cases hwaits

theorem queuedRequests_eq (l : ContactList) : l.queuedRequests = l.queuedTokens.length := by
  rw [queuedTokens, List.length_flatMap]
  rfl

/-- What is said of each channel stays true if channels are put that it is true of. -/
theorem forall_put {l : ContactList} {p : ContactTarget → ContactChannel → Prop}
    {t : ContactTarget} {c : ContactChannel} (h : ∀ t c, l.channels.get? t = some c → p t c)
    (hc : p t c) : ∀ t' c', (l.put t c).channels.get? t' = some c' → p t' c' := by
  intro t' c' hc'
  simp only [put, SortedMap.get?_insert] at hc'
  split at hc'
  case isTrue heq =>
    subst heq
    exact Option.some.inj hc' ▸ hc
  case isFalse => exact h t' c' hc'

/-- Or if channels are taken away. -/
theorem forall_remove {l : ContactList} {p : ContactTarget → ContactChannel → Prop}
    (t : ContactTarget) (h : ∀ t c, l.channels.get? t = some c → p t c) :
    ∀ t' c', (l.remove t).channels.get? t' = some c' → p t' c' := by
  intro t' c' hc'
  simp only [remove, SortedMap.get?_erase] at hc'
  split at hc'
  · cases hc'
  · exact h t' c' hc'

end ContactList

namespace ContactScene

variable {σ : Type} {server : ContactServer σ} {P : ContactTarget → Prop} {X : Handle → Prop}
  {M : String → String → Prop} {Q : ContactTarget → Prop} {s s₁ : ContactScene σ}

/-! ## Channels one by one -/

/-- What is said of each channel's announcement and queue stays true in the course of a batch. -/
theorem forall_change {p : ContactTarget → Bool → List RequestToken → Prop} (t : ContactTarget)
    (b : MembershipChange)
    (h : ∀ t c, s.list.channels.get? t = some c → p t c.announced c.queued) :
    ∀ t' c, (s.change t b).list.channels.get? t' = some c → p t' c.announced c.queued := by
  unfold change updateMembership
  split
  · exact h
  case h_2 c hc =>
    exact ContactList.forall_put (p := fun t c => p t c.announced c.queued) h (h t c hc)

theorem prompt_announcePending (h : s.list.Prompt) : s.announcePending.list.Prompt := by
  unfold announcePending
  dsimp only
  split
  · exact h
  · intro t c hc
    obtain ⟨c₀, hc₀, rfl⟩ :=
      Option.map_eq_some_iff.mp ((SortedMap.get?_mapValues _ _ _).symm.trans hc)
    split
    case isTrue => exact h t c₀ hc₀
    case isFalse => exact fun _ => rfl

/-- Once the roster is there, an announcement leaves nothing to be announced. -/
theorem told_announcePending (hreceived : s.list.roster = .received) (h : s.list.Prompt) :
    s.announcePending.list.Told Q := by
  unfold announcePending
  dsimp only
  split
  case isTrue hnothing =>
    intro t c hc _
    have hknown : c.announced = true := by
      have hmem := SortedMap.get?_eq_some_iff.mp hc
      have hunknown := hnothing.resolve_left fun hne => hne hreceived
      have := List.filter_eq_nil_iff.mp hunknown _ hmem
      simpa using this
    exact ⟨hknown, h t c hc hknown⟩
  case isFalse =>
    intro t c hc _
    obtain ⟨c₀, hc₀, rfl⟩ :=
      Option.map_eq_some_iff.mp ((SortedMap.get?_mapValues _ _ _).symm.trans hc)
    split
    case isTrue hold => exact ⟨hold, h t c₀ hc₀ hold⟩
    case isFalse => exact ⟨rfl, rfl⟩

/-- No act makes a request wait for a channel that clients know of. -/
theorem Act.prompt (hact : Act server P s s₁) (h : s.list.Prompt) : s₁.list.Prompt := by
  cases hact with
  | call m => exact h
  | change ht c => exact forall_change (p := fun _ a q => a = true → q = []) _ c h
  | opening hopen =>
    rcases openChannel_eq_ok hopen with ⟨rfl, -⟩ | ⟨r, c, -, hvacant, rfl, -⟩
    · exact h
    · exact ContactList.forall_put h fun hknown => absurd hknown (by simp [hvacant.unannounced])
  | announcePending => exact prompt_announcePending h
  | announceFor t token =>
    unfold ContactScene.announceFor
    split
    · exact h
    · exact ContactList.forall_put h fun _ => rfl
  | satisfy t token =>
    unfold ContactScene.satisfy
    split
    · exact h
    · split
      · exact h
      case isFalse hunknown =>
        exact ContactList.forall_put h fun hknown => absurd hknown hunknown
  | fail tokens e => exact h
  | detach name => exact ContactList.forall_remove _ h
  | close t c e => rwa [list_close]
  | dismiss t c reason e => rwa [list_dismiss]
  | arrival => exact h

theorem Acts.prompt (hacts : Acts server P s s₁) (h : s.list.Prompt) : s₁.list.Prompt :=
  hacts.rel (R := fun s s' => s.list.Prompt → s'.list.Prompt) (fun _ => id)
    (fun h h' hs => h' (h hs)) Act.prompt h

/-- No act takes a list away. -/
theorem Act.hasList (hact : Act server P s s₁) (k : ListKind) (h : s.list.HasChannel (.list k)) :
    s₁.list.HasChannel (.list k) := by
  -- A batch leaves all channels; all other acts are those that are done about groups.
  have hgroups : Act server groupsOnly s s₁ → s₁.list.HasChannel (.list k) :=
    fun hact => hact.keepsLists.hasChannel k h
  cases hact with
  | change ht c => exact (hasChannel_change s _ _ c).mpr h
  | call m => exact hgroups (.call s m)
  | opening hopen => exact hgroups (.opening hopen)
  | announcePending => exact hgroups (.announcePending s)
  | announceFor t token => exact hgroups (.announceFor s t token)
  | satisfy t token => exact hgroups (.satisfy s t token)
  | fail tokens e => exact hgroups (.fail s tokens e)
  | detach name => exact hgroups (.detach s name)
  | close t c e => exact hgroups (.close s t c e)
  | dismiss t c reason e => exact hgroups (.dismiss s t c reason e)
  | arrival => exact hgroups (.arrival s)

theorem Acts.hasList (hacts : Acts server P s s₁) (k : ListKind)
    (h : s.list.HasChannel (.list k)) : s₁.list.HasChannel (.list k) :=
  hacts.rel (R := fun s s' => s.list.HasChannel (.list k) → s'.list.HasChannel (.list k))
    (fun _ => id) (fun h h' hs => h' (h hs)) (fun hact => hact.hasList k) h

/-! ## Deeds -/

/-- Once it is known what became of the roster, every deed is a chain of acts. -/
theorem Deed.acts (hdeed : Deed server X M s s₁) (harrived : s.list.roster ≠ .pending) :
    Acts server anyChannel s s₁ := by
  cases hdeed with
  | call hm => exact .single (.call s _)
  | change t hc => exact acts_change s t _
  | fail tokens e => exact .single (.fail s tokens e)
  | create hfollows names => exact (acts_tryOpenGroups s names).tail (.announcePending _)
  | closeGroup name => exact acts_closeGroup s name
  | moveGroup hM => exact acts_moveGroup (fun _ => trivial) s _ _
  | satisfy h token => exact .single (.satisfy s _ token)
  | serve hcheck hopen => exact (Acts.single (.opening hopen)).tail (.satisfy _ _ _)
  | await hcheck hnone hroster hopen => exact (Acts.single (.opening hopen)).tail (.satisfy _ _ _)
  | grant hnone hroster hopen token =>
    exact (Acts.single (.opening hopen)).tail (.announceFor _ _ _)
  | load hroster => exact absurd hroster harrived
  | lament hroster e => exact absurd hroster harrived

theorem Deed.settings (hdeed : Deed server X M s s₁) (harrived : s.list.roster ≠ .pending) :
    s₁.list.settings = s.list.settings := by
  cases hdeed with
  | call hm => rfl
  | change t hc => simp
  | fail tokens e => rfl
  | create hfollows names => simp
  | closeGroup name => simp
  | moveGroup hM => simp
  | satisfy h token => simp
  | serve hcheck hopen => simp [settings_openChannel s hopen]
  | await hcheck hnone hroster hopen => simp [settings_openChannel s hopen]
  | grant hnone hroster hopen token => simp [settings_openChannel s hopen]
  | load hroster => exact absurd hroster harrived
  | lament hroster e => exact absurd hroster harrived

/-- A request for a channel that clients know of does not wait. -/
theorem told_satisfy (h : s.list.Told Q) (t : ContactTarget) (token : RequestToken) :
    (s.satisfy t token).list.Told Q := by
  unfold satisfy
  split
  · exact h
  case h_2 c hc =>
    split
    · exact h
    case isFalse hunknown =>
      exact ContactList.forall_put h fun ht => absurd (h t c hc ht).1 hunknown

/-- A deed leaves nothing to be announced and nobody waiting, if all lists are there. -/
theorem Deed.told (hdeed : Deed server X M s s₁) (h : s.list.Settled Q) : s₁.list.Told Q := by
  have hpending : s.list.roster ≠ .pending := by
    rw [h.received]
    decide
  cases hdeed with
  | call hm => exact h.told
  | change t hc => exact forall_change (p := fun t a q => Q t → a = true ∧ q = []) t _ h.told
  | fail tokens e => exact h.told
  | create hfollows names =>
    have hopened : Acts server anyChannel s (s.tryOpenGroups names) := acts_tryOpenGroups s names
    refine told_announcePending ?_ (hopened.prompt h.prompt)
    exact (congrArg Prod.snd (settings_tryOpenGroups s names)).trans h.received
  | closeGroup name =>
    unfold ContactScene.closeGroup
    split
    · exact h.told
    · rw [list_dismiss]
      exact ContactList.forall_remove _ h.told
  | @moveGroup old target hM =>
    unfold ContactScene.moveGroup
    split
    · exact h.told
    · have hdetached : (s.detach (.group old)).list.Prompt := ContactList.forall_remove _ h.prompt
      have hsettings : ((s.detach (.group old)).tryOpen (.group target)).list.settings =
          s.list.settings := by simp
      rw [list_dismiss]
      refine forall_change (p := fun t a q => Q t → a = true ∧ q = []) _ _
        (told_announcePending ?_ ?_)
      · exact (congrArg Prod.snd hsettings).trans h.received
      · exact (acts_tryOpen _ _ : Acts server anyChannel _ _).prompt hdetached
  | satisfy hc token => exact told_satisfy h.told _ token
  | serve hcheck hopen =>
    rcases openChannel_eq_ok hopen with ⟨rfl, -⟩ | ⟨r, c, -, -, rfl, habsent, -⟩
    · exact told_satisfy h.told _ _
    · -- The list is there if it counts, so only one that does not is opened.
      have hsupported := (of_checkListRequest hcheck).1
      refine told_satisfy ?_ _ _
      exact ContactList.forall_put h.told fun ht => absurd (h.lists _ ht hsupported) habsent
  | await hcheck hnone hroster hopen => exact absurd h.received hroster
  | @grant _ name hnone hroster hopen token =>
    rcases openChannel_eq_ok hopen with ⟨-, hthere⟩ | ⟨r, c, -, -, rfl, -⟩
    · rw [ContactList.hasChannel_iff] at hthere
      obtain ⟨c, hc⟩ := hthere
      rw [ContactList.group?, hc] at hnone
      cases hnone
    · -- The only channel that is new is announced.
      have hnew : (s.list.put (.group name) c).channels.get? (.group name) = some c :=
        SortedMap.get?_insert_self _ _ _
      unfold announceFor
      simp only [hnew]
      intro t' c' hc'
      simp only [emit, ContactList.put, SortedMap.get?_insert] at hc'
      split at hc'
      · cases hc'
        exact fun _ => ⟨rfl, rfl⟩
      · exact h.told t' c' hc'
  | load hroster => exact absurd hroster hpending
  | lament hroster e => exact absurd hroster hpending

theorem Deed.settled (hdeed : Deed server X M s s₁) (h : s.list.Settled Q) :
    s₁.list.Settled Q := by
  have harrived : s.list.roster ≠ .pending := by
    rw [h.received]
    decide
  have hsettings := hdeed.settings harrived
  have hacts := hdeed.acts harrived
  refine ⟨(congrArg Prod.snd hsettings).trans h.received, fun k ht hk => ?_,
    hacts.prompt h.prompt, hdeed.told h⟩
  rw [capabilities_of_settings s hsettings] at hk
  exact hacts.hasList k (h.lists k ht hk)

/-! ## Operations and requests -/

theorem settled_perform (op : ContactOperation (SortedSet Handle)) (h : s.list.Settled Q) :
    (s.perform server op).2.list.Settled Q :=
  (deeds_perform (M := fun _ _ => True) s (within_anybody s op) fun _ _ _ => trivial).keeps
    (I := fun s => s.list.Settled Q) Deed.settled h

/-- By nothing but its arrival does the roster count as received. -/
theorem received_of_perform {op : ContactOperation (SortedSet Handle)} (hop : op ≠ .received)
    (h : (s.perform server op).2.list.roster = .received) : s.list.roster = .received := by
  by_cases hpending : s.list.roster = .pending
  · cases op with
    | failed e =>
      simp only [perform, noticed, rosterFailed, if_pos hpending] at h
      cases h
    | _ =>
      rw [← h]
      exact (congrArg Prod.snd (settings_perform server s hop (by simp))).symm
  · rw [← h]
    exact (congrArg Prod.snd (settings_perform_of_arrived server s hpending op)).symm

theorem settled_offer (r : ChannelRequest) (h : s.list.Settled Q) :
    (s.offer server r).2.list.Settled Q :=
  (deeds_offer (X := anybody) (M := fun _ _ => True) s r).keeps
    (I := fun s => s.list.Settled Q) Deed.settled h

/-! ## The arrival of the roster -/

/-- Every list that the protocol has is there or can be opened. -/
def CanList (s : ContactScene σ) : Prop :=
  ∀ k, k.isSupported s.list.capabilities = true →
    s.list.HasChannel (.list k) ∨ s.tables.Gives .list k.name

theorem hasList_openLists (server : ContactServer σ) (h : s.CanList) {k : ListKind}
    (hk : k.isSupported s.list.capabilities = true) : s.openLists.list.HasChannel (.list k) := by
  have hall : k ∈ ListKind.all.filter (·.isSupported s.list.capabilities) :=
    List.mem_filter.mpr ⟨by cases k <;> decide, hk⟩
  have hfold : ∀ (l : List ListKind) (s : ContactScene σ),
      s.list.HasChannel (.list k) ∨ k ∈ l ∧ s.tables.Gives .list k.name →
        (l.foldl (fun s k => s.tryOpen (.list k)) s).list.HasChannel (.list k) := by
    intro l
    induction l with
    | nil => exact fun s h => h.resolve_right fun h => nomatch h.1
    | cons k' l ih =>
      intro s h
      have hkeeps : s.list.HasChannel (.list k) →
          (s.tryOpen (.list k')).list.HasChannel (.list k) :=
        (acts_tryOpen s (.list k') : Acts server anyChannel s _).hasList k
      refine ih _ ?_
      rcases h with hthere | ⟨hmem, hgives⟩
      · exact .inl (hkeeps hthere)
      · rcases List.mem_cons.mp hmem with rfl | hlater
        · exact .inl ((hasChannel_tryOpen hgives _).mpr (.inl rfl))
        · exact .inr ⟨hlater, (local_tryOpen s _).tables.gives hgives⟩
  exact hfold _ s ((h k hk).imp_right fun hgives => ⟨hall, hgives⟩)

/-- When the roster arrives, nothing waits for it any more, except for lists if some of them cannot
be opened. -/
theorem settled_rosterReceived (hpending : s.list.roster = .pending) (hprompt : s.list.Prompt)
    (hlists : ∀ k, Q (.list k) → s.CanList) : (s.rosterReceived server).list.Settled Q := by
  have harrival : s.rosterReceived server = s.loadRoster server := if_pos hpending
  rw [harrival]
  have hsettings := settings_loadRoster server s
  let s₀ : ContactScene σ := { s with list := { s.list with roster := .received } }
  let s₁ := (s₀.openLists.loadGroups server).fillChannels server
    (server.contacts (s₀.openLists.loadGroups server).server)
  have hload : s.loadRoster server = s₁.announcePending := rfl
  have hacts : Acts server anyChannel s₀.openLists s₁ :=
    (acts_loadGroups _).trans (acts_fillChannels _ _)
  have hreceived : s₁.list.roster = .received := by
    have : s₁.list.settings = s₀.list.settings := by simp [s₁]
    exact congrArg Prod.snd this
  have hopens : Acts server anyChannel s₀ s₀.openLists := acts_openLists s₀
  have hknown : s₁.list.Prompt := (hopens.trans hacts).prompt hprompt
  refine ⟨congrArg Prod.snd hsettings, fun k ht hk => ?_,
    hload ▸ prompt_announcePending hknown, hload ▸ told_announcePending hreceived hknown⟩
  rw [show (s.loadRoster server).list.capabilities = s.list.capabilities from
    congrArg Prod.fst hsettings] at hk
  have hopened : s₀.openLists.list.HasChannel (.list k) :=
    hasList_openLists (s := s₀) server (hlists k ht) hk
  rw [hload]
  exact (hacts.tail (.announcePending s₁)).hasList k hopened

end ContactScene

end Telepathy
