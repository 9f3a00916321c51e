import Telepathy.Proofs.ContactList.Acts
import Telepathy.Proofs.ContactList.Deeds
import Telepathy.Proofs.ContactList.Paths
import Telepathy.Proofs.ContactList.Standings

set_option autoImplicit false

/-!
# Which channels a contact list has announced

A contact list announces channels in batches and says of each when it goes away. `Voices` says what
its effects may look like to somebody who keeps the set of announced paths: new channels have paths
that are not in the set, and a channel that goes away has a path that is. The account is right if
the set is that of the channels which the contact list has and counts as announced.

Every deed keeps the account right, provided that groups are moved between different names only.
While a group is moved, its old channel is out of the list but not closed yet; it is *loose*.
-/

namespace Telepathy

/-- A signal says nothing about which channels there are. -/
def Signal.IsQuiet : Signal → Prop
  | newChannels _ | newChannel _ _ _ _ _ | channelClosed _ | closed => False
  | _ => True

/-- An effect says nothing about which channels there are. -/
def Effect.IsQuiet : Effect → Prop
  | report (.newChannels _) | report (.closed _) => False
  | report _ | called _ => True
  | signal _ s => s.IsQuiet

/-- The effects by which a set of announced paths comes from the set `start`. -/
inductive Voices (start : SortedSet ObjectPath) : List Effect → SortedSet ObjectPath → Prop
  | silence : Voices start [] start
  | quiet {effects : List Effect} {known : SortedSet ObjectPath} {e : Effect}
      (h : Voices start effects known) (he : e.IsQuiet) : Voices start (effects ++ [e]) known
  | announce {effects : List Effect} {known : SortedSet ObjectPath}
      {batch : List (ChannelDetails × List RequestToken)} (h : Voices start effects known)
      (hnodup : (batch.map (·.1.path)).Nodup) (hnew : ∀ p ∈ batch.map (·.1.path), p ∉ known) :
      Voices start (effects ++ [.report (.newChannels batch)])
        (known.union (.ofList (batch.map (·.1.path))))
  | close {effects : List Effect} {known : SortedSet ObjectPath} {p : ObjectPath}
      (h : Voices start effects known) (hp : p ∈ known) :
      Voices start (effects ++ [.signal p .closed, .report (.closed p)]) (known.erase p)

theorem Voices.append_quiet {start known : SortedSet ObjectPath} {effects : List Effect}
    (h : Voices start effects known) {more : List Effect} (hmore : ∀ e ∈ more, e.IsQuiet) :
    Voices start (effects ++ more) known := by
  induction more generalizing effects with
  | nil => rwa [List.append_nil]
  | cons e more ih =>
    have hfirst := h.quiet (hmore e List.mem_cons_self)
    rw [List.append_cons]
    exact ih hfirst fun e' he' => hmore e' (List.mem_cons_of_mem _ he')

theorem Voices.of_nil {start known : SortedSet ObjectPath} (h : Voices start [] known) :
    known = start := by
  generalize heffects : ([] : List Effect) = effects at h
  cases h with
  | silence => rfl
  | _ => simp at heffects

/-- A channel as far as announcements are concerned. -/
structure ChannelLook where
  handle : Handle
  path : ObjectPath
  announced : Bool

def ContactChannel.look (c : ContactChannel) : ChannelLook := ⟨c.handle, c.path, c.announced⟩

def ContactList.look? (l : ContactList) (t : ContactTarget) : Option ChannelLook :=
  (l.channels.get? t).map ContactChannel.look

namespace ContactList

theorem look?_eq_some {l : ContactList} {t : ContactTarget} {look : ChannelLook} :
    l.look? t = some look ↔ ∃ c, l.channels.get? t = some c ∧ c.look = look :=
  Option.map_eq_some_iff

theorem look?_put (l : ContactList) (t t' : ContactTarget) (c : ContactChannel) :
    (l.put t c).look? t' = if t' = t then some c.look else l.look? t' := by
  rw [look?, put, SortedMap.get?_insert]
  split <;> rfl

theorem look?_remove (l : ContactList) (t t' : ContactTarget) :
    (l.remove t).look? t' = if t' = t then none else l.look? t' := by
  rw [look?, remove, SortedMap.get?_erase]
  split <;> rfl

/-- To put a channel in its own place changes nothing about it that shows. -/
theorem look?_put_same {l : ContactList} {t : ContactTarget} {c c' : ContactChannel}
    (hc : l.channels.get? t = some c) (hlook : c'.look = c.look) (t' : ContactTarget) :
    (l.put t c').look? t' = l.look? t' := by
  rw [look?_put]
  split
  case isTrue heq => rw [heq, hlook, look?, hc, Option.map_some]
  case isFalse => rfl

theorem mem_paths {l : ContactList} {p : ObjectPath} :
    p ∈ l.channelDetails.map (·.path) ↔
      ∃ t c, l.channels.get? t = some c ∧ c.announced = true ∧ c.path = p := by
  simp only [channelDetails, announced, List.map_map, List.mem_map, List.mem_filter]
  constructor
  · rintro ⟨e, ⟨hc, hannounced⟩, rfl⟩
    exact ⟨e.1, e.2, SortedMap.get?_eq_some_iff.mpr hc, hannounced, rfl⟩
  · rintro ⟨t, c, hc, hannounced, rfl⟩
    exact ⟨(t, c), ⟨SortedMap.get?_eq_some_iff.mp hc, hannounced⟩, rfl⟩

end ContactList

namespace ContactScene

variable {σ : Type} {server : ContactServer σ} {s s₁ : ContactScene σ}
  {start : SortedSet ObjectPath} {loose : Option (ContactTarget × ChannelLook)}

/-! ## The account -/

/-- There is a channel with this look, in the list or loose. -/
def Owns (s : ContactScene σ) (loose : Option (ContactTarget × ChannelLook)) (t : ContactTarget)
    (look : ChannelLook) : Prop :=
  s.list.look? t = some look ∨ loose = some (t, look)

/-- All channels have the paths that their handles give them, and no two have the same. -/
structure Arranged (loose : Option (ContactTarget × ChannelLook)) (s : ContactScene σ) : Prop where
  faithful : s.tables.Faithful
  gone : ∀ t look, loose = some (t, look) → s.list.look? t = none
  placed : ∀ t look, s.Owns loose t look → look.path = s.list.pathOf t look.handle
  means : ∀ t look, s.Owns loose t look → s.tables.Means ⟨t.entity, look.handle⟩ t.name
  apart : ∀ t look t' look', s.Owns loose t look → s.Owns loose t' look' →
    look.path = look'.path → t = t'

/-- The path of an announced channel. -/
def Announced (loose : Option (ContactTarget × ChannelLook)) (s : ContactScene σ)
    (p : ObjectPath) : Prop :=
  ∃ t look, s.Owns loose t look ∧ look.announced = true ∧ look.path = p

/-- Whoever hears the effects, having known the channels with paths in `start`, knows the announced
channels. -/
structure Accounted (start : SortedSet ObjectPath)
    (loose : Option (ContactTarget × ChannelLook)) (s : ContactScene σ) : Prop where
  arranged : s.Arranged loose
  voiced : ∃ known, Voices start s.effects known ∧ ∀ p, p ∈ known ↔ s.Announced loose p

theorem pathOf_of_basePath {l l' : ContactList} (h : l'.basePath = l.basePath) (t : ContactTarget)
    (handle : Handle) : l'.pathOf t handle = l.pathOf t handle := by
  cases t <;> simp only [ContactList.pathOf, h]

namespace Arranged

variable {loose₁ : Option (ContactTarget × ChannelLook)}

/-- A list without channels is arranged. -/
theorem of_no_channels (htables : s.tables.Faithful) (hnone : s.list.channels = .empty) :
    s.Arranged none := by
  have hvacant : ∀ t look, ¬ s.Owns none t look := by
    rintro t look (hlook | hlook)
    · rw [ContactList.look?, hnone] at hlook
      cases hlook
    · cases hlook
  exact
    { faithful := htables
      gone := by simp
      placed := fun t look hlook => absurd hlook (hvacant t look)
      means := fun t look hlook => absurd hlook (hvacant t look)
      apart := fun t look _ _ hlook => absurd hlook (hvacant t look) }

theorem unique (h : s.Arranged loose) {t : ContactTarget} {look look' : ChannelLook}
    (ht : s.Owns loose t look) (ht' : s.Owns loose t look') : look = look' := by
  rcases ht with ht | ht <;> rcases ht' with ht' | ht'
  · exact Option.some.inj (ht.symm.trans ht')
  · rw [h.gone t look' ht'] at ht
    cases ht
  · rw [h.gone t look ht] at ht'
    cases ht'
  · exact (Prod.mk.inj (Option.some.inj (ht.symm.trans ht'))).2

/-- Channels stay arranged if no new ones come. -/
theorem inherit (h : s.Arranged loose) (hbase : s₁.list.basePath = s.list.basePath)
    (htables : s.tables.Evolves s₁.tables)
    (hgone : ∀ t look, loose₁ = some (t, look) → s₁.list.look? t = none)
    (hold : ∀ t look, s₁.Owns loose₁ t look →
      ∃ look₀, s.Owns loose t look₀ ∧ look₀.handle = look.handle ∧ look₀.path = look.path) :
    s₁.Arranged loose₁ where
  faithful := h.faithful.evolves htables
  gone := hgone
  placed t look hlook := by
    obtain ⟨look₀, hlook₀, hhandle, hpath⟩ := hold t look hlook
    rw [pathOf_of_basePath hbase, ← hpath, ← hhandle]
    exact h.placed t look₀ hlook₀
  means t look hlook := by
    obtain ⟨look₀, hlook₀, hhandle, -⟩ := hold t look hlook
    rw [← hhandle]
    exact (h.means t look₀ hlook₀).evolves htables
  apart t look t' look' hlook hlook' heq := by
    obtain ⟨look₀, hlook₀, -, hpath⟩ := hold t look hlook
    obtain ⟨look₀', hlook₀', -, hpath'⟩ := hold t' look' hlook'
    exact h.apart t look₀ t' look₀' hlook₀ hlook₀' (by rw [hpath, hpath', heq])

end Arranged

namespace Accounted

/-- What clients need not be told of leaves the account right. -/
theorem quietly (h : s.Accounted start loose) (hbase : s₁.list.basePath = s.list.basePath)
    (htables : s.tables.Evolves s₁.tables) (hlooks : ∀ t, s₁.list.look? t = s.list.look? t)
    {more : List Effect} (heffects : s₁.effects = s.effects ++ more)
    (hmore : ∀ e ∈ more, e.IsQuiet) : s₁.Accounted start loose := by
  have howns : ∀ t look, s₁.Owns loose t look ↔ s.Owns loose t look := fun t look => by
    rw [Owns, Owns, hlooks]
  obtain ⟨known, hvoices, hknown⟩ := h.voiced
  refine ⟨h.arranged.inherit hbase htables ?_ ?_, known, ?_, fun p => (hknown p).trans ?_⟩
  · intro t look ht
    rw [hlooks, h.arranged.gone t look ht]
  · exact fun t look hlook => ⟨look, (howns t look).mp hlook, rfl, rfl⟩
  · rw [heffects]
    exact hvoices.append_quiet hmore
  · simp only [Announced, howns]

/-- What is done next starts with the paths that are known by now, whatever becomes of the tables in
the meantime. -/
theorem next (h : s.Accounted start none) :
    ∃ known, Voices start s.effects known ∧ ∀ tables, s.tables.Evolves tables →
      Accounted known none ⟨s.list, s.server, tables, []⟩ := by
  obtain ⟨known, hvoices, hknown⟩ := h.voiced
  refine ⟨known, hvoices, fun tables htables =>
    ⟨h.arranged.inherit rfl htables ?_ ?_, known, .silence, hknown⟩⟩
  · exact fun t look heq => nomatch heq
  · exact fun t look hlook => ⟨look, hlook, rfl, rfl⟩

/-- Before anything is done, the paths that are known are those of the announced channels. -/
theorem mem_start (h : s.Accounted start none) (heffects : s.effects = []) (p : ObjectPath) :
    p ∈ start ↔ p ∈ s.list.channelDetails.map (·.path) := by
  obtain ⟨known, hvoices, hknown⟩ := h.voiced
  rw [heffects] at hvoices
  rw [← hvoices.of_nil, hknown, ContactList.mem_paths]
  constructor
  · rintro ⟨t, look, hlook, hannounced⟩
    obtain ⟨c, hc, rfl⟩ := ContactList.look?_eq_some.mp (hlook.resolve_right fun heq => nomatch heq)
    exact ⟨t, c, hc, hannounced⟩
  · rintro ⟨t, c, hc, hannounced⟩
    exact ⟨t, c.look, .inl (ContactList.look?_eq_some.mpr ⟨c, hc, rfl⟩), hannounced⟩

end Accounted

/-! ## Channels come -/

/-- A channel is new if it is neither in the list nor loose. -/
theorem owns_put (tables : HandleTables) {t : ContactTarget} (c : ContactChannel)
    (hnew : ∀ look, ¬ s.Owns loose t look) (t' : ContactTarget) (look : ChannelLook) :
    ContactScene.Owns { s with tables, list := s.list.put t c } loose t' look ↔
      s.Owns loose t' look ∨ t' = t ∧ look = c.look := by
  simp only [Owns, ContactList.look?_put]
  split
  case isTrue heq =>
    subst heq
    have hnone : ¬ (s.list.look? t' = some look ∨ loose = some (t', look)) := hnew look
    rw [not_or] at hnone
    simp only [Option.some.injEq, hnone.1, hnone.2, or_false, false_or, true_and]
    exact eq_comm
  case isFalse hne => simp only [hne, false_and, or_false]

/-- The path of a new channel is new: another channel with this path would have the handle that
names the new one. -/
theorem Arranged.opening (h : s.Arranged loose) {t : ContactTarget} {c : ContactChannel}
    {r : Handle × HandleTables} (hensure : s.tables.ensure t.entity t.name = .ok r)
    (hnew : ∀ look, ¬ s.Owns loose t look) (hhandle : c.handle = r.1)
    (hpath : c.path = s.list.pathOf t r.1) :
    Arranged loose { s with tables := r.2.retain ⟨t.entity, r.1⟩, list := s.list.put t c } := by
  have hissued : s.tables.Evolves r.2 := (HandleTables.issues_of_ensure hensure).evolves
  have hretained : r.2.Evolves (r.2.retain ⟨t.entity, r.1⟩) := HandleTables.evolves_retain _ _
  have hnames : r.2.inspect ⟨t.entity, r.1⟩ = some t.name := h.faithful.inspect_ensure hensure
  have hother : ∀ t' look, s.Owns loose t' look → look.path ≠ c.path := by
    intro t' look hlook heq
    rw [h.placed t' look hlook, hpath] at heq
    obtain ⟨hentity, hsame⟩ := ContactList.pathOf_injective heq
    have hmeans := (h.means t' look hlook).evolves hissued
    rw [hentity, hsame] at hmeans
    have htarget : t = t' := ContactTarget.ext hentity.symm (hmeans.of_inspect hnames)
    exact hnew look (htarget ▸ hlook)
  have howns := owns_put (r.2.retain ⟨t.entity, r.1⟩) c hnew
  refine ⟨(h.faithful.evolves hissued).evolves hretained, ?_, ?_, ?_, ?_⟩
  · intro t' look ht'
    rw [ContactList.look?_put, if_neg, h.gone t' look ht']
    rintro rfl
    exact hnew look (.inr ht')
  · intro t' look hlook
    rcases (howns t' look).mp hlook with hlook | ⟨rfl, rfl⟩
    · exact h.placed t' look hlook
    · exact hpath.trans (congrArg _ hhandle.symm)
  · intro t' look hlook
    rcases (howns t' look).mp hlook with hlook | ⟨rfl, rfl⟩
    · exact ((h.means t' look hlook).evolves hissued).evolves hretained
    · refine HandleTables.Means.evolves ?_ hretained
      rw [ContactChannel.look, hhandle]
      exact (hissued.coherent h.faithful.coherent).means hnames
  · intro t' look t'' look' hlook hlook' heq
    rcases (howns t' look).mp hlook with hold | ⟨rfl, rfl⟩ <;>
      rcases (howns t'' look').mp hlook' with hold' | ⟨rfl, rfl⟩
    · exact h.apart t' look t'' look' hold hold' heq
    · exact absurd heq (hother t' look hold)
    · exact absurd heq.symm (hother t'' look' hold')
    · rfl

/-- A channel that comes is not announced yet. -/
theorem Accounted.opening (h : s.Accounted start loose) {t : ContactTarget} {requested : Bool}
    (hloose : ∀ look, loose ≠ some (t, look)) (hopen : s.openChannel t requested = .ok s₁) :
    s₁.Accounted start loose := by
  rcases openChannel_eq_ok hopen with
    ⟨rfl, -⟩ | ⟨r, c, hensure, hvacant, rfl, habsent, hhandle, hpath, -⟩
  · exact h
  have hnew : ∀ look, ¬ s.Owns loose t look := by
    rintro look (hlook | hlook)
    · obtain ⟨c', hc', -⟩ := ContactList.look?_eq_some.mp hlook
      exact habsent (ContactList.hasChannel_iff.mpr ⟨c', hc'⟩)
    · exact hloose look hlook
  obtain ⟨known, hvoices, hknown⟩ := h.voiced
  refine ⟨h.arranged.opening hensure hnew hhandle hpath, known, hvoices,
    fun p => (hknown p).trans ?_⟩
  simp only [Announced, owns_put _ c hnew]
  constructor
  · rintro ⟨t', look, hlook, hannounced⟩
    exact ⟨t', look, .inl hlook, hannounced⟩
  · rintro ⟨t', look, hlook | ⟨rfl, rfl⟩, hannounced, hp⟩
    · exact ⟨t', look, hlook, hannounced, hp⟩
    · exact absurd hannounced (by simp [ContactChannel.look, hvacant.unannounced])

/-! ## Channels are announced -/

/-- Between two scenes, the channels in `fresh` are announced. -/
structure Announces (fresh : List (ContactTarget × ContactChannel)) (s s₁ : ContactScene σ) :
    Prop where
  nodup : fresh.Nodup
  there : ∀ e ∈ fresh, s.list.channels.get? e.1 = some e.2
  untold : ∀ e ∈ fresh, e.2.announced = false
  told : ∀ e ∈ fresh, s₁.list.look? e.1 = some { e.2.look with announced := true }
  others : ∀ t, (∀ e ∈ fresh, e.1 ≠ t) → s₁.list.look? t = s.list.look? t
  basePath : s₁.list.basePath = s.list.basePath
  tables : s₁.tables = s.tables

namespace Announces

variable {fresh : List (ContactTarget × ContactChannel)}

theorem owns (h : s.Announces fresh s₁) {e : ContactTarget × ContactChannel} (he : e ∈ fresh) :
    s.Owns loose e.1 e.2.look :=
  .inl (ContactList.look?_eq_some.mpr ⟨e.2, h.there e he, rfl⟩)

/-- The channels with these paths were not announced before. -/
theorem not_announced (h : s.Announces fresh s₁) (hs : s.Arranged loose)
    {e : ContactTarget × ContactChannel} (he : e ∈ fresh) : ¬ s.Announced loose e.2.path := by
  rintro ⟨t, look, hlook, hannounced, hpath⟩
  obtain rfl := hs.apart t look e.1 e.2.look hlook (h.owns he) hpath
  rw [hs.unique hlook (h.owns he)] at hannounced
  exact Bool.false_ne_true ((h.untold e he).symm.trans hannounced)

theorem nodup_paths (h : s.Announces fresh s₁) (hs : s.Arranged loose) :
    (fresh.map (·.2.path)).Nodup := by
  refine List.pairwise_map.mpr (h.nodup.imp_of_mem fun {e e'} he he' hne heq => hne ?_)
  have htarget := hs.apart _ _ _ _ (h.owns he) (h.owns he') heq
  refine Prod.ext htarget (Option.some.inj ?_)
  rw [← h.there e he, ← h.there e' he', htarget]

/-- A channel is as it was, or it is one of those that are announced. -/
theorem owns_iff (h : s.Announces fresh s₁) (hs : s.Arranged loose) (t : ContactTarget)
    (look : ChannelLook) :
    s₁.Owns loose t look ↔ s.Owns loose t look ∧ (∀ e ∈ fresh, e.1 ≠ t) ∨
      ∃ e ∈ fresh, e.1 = t ∧ look = { e.2.look with announced := true } := by
  by_cases hin : ∃ e ∈ fresh, e.1 = t
  · obtain ⟨e, he, rfl⟩ := hin
    have hlisted : ∀ look, loose ≠ some (e.1, look) := fun look hloose => by
      have hnone := hs.gone e.1 look hloose
      rw [ContactList.look?, h.there e he] at hnone
      cases hnone
    constructor
    · rintro (hlook | hlook)
      · exact .inr ⟨e, he, rfl, (Option.some.inj ((h.told e he).symm.trans hlook)).symm⟩
      · exact absurd hlook (hlisted look)
    · rintro (⟨-, hout⟩ | ⟨e', he', heq, rfl⟩)
      · exact absurd rfl (hout e he)
      · exact .inl (heq ▸ h.told e' he')
  · have hout : ∀ e ∈ fresh, e.1 ≠ t := fun e he heq => hin ⟨e, he, heq⟩
    rw [Owns, Owns, h.others t hout]
    constructor
    · exact fun hlook => .inl ⟨hlook, hout⟩
    · rintro (⟨hlook, -⟩ | ⟨e, he, heq, -⟩)
      · exact hlook
      · exact absurd heq (hout e he)

theorem announced_iff (h : s.Announces fresh s₁) (hs : s.Arranged loose) (p : ObjectPath) :
    s₁.Announced loose p ↔ s.Announced loose p ∨ p ∈ fresh.map (·.2.path) := by
  rw [List.mem_map]
  constructor
  · rintro ⟨t, look, hlook, hannounced, hp⟩
    rcases (h.owns_iff hs t look).mp hlook with ⟨hlook, -⟩ | ⟨e, he, -, rfl⟩
    · exact .inl ⟨t, look, hlook, hannounced, hp⟩
    · exact .inr ⟨e, he, hp⟩
  · rintro (⟨t, look, hlook, hannounced, rfl⟩ | ⟨e, he, rfl⟩)
    · refine ⟨t, look, (h.owns_iff hs t look).mpr (.inl ⟨hlook, ?_⟩), hannounced, rfl⟩
      rintro e he rfl
      exact h.not_announced hs he ⟨e.1, look, hlook, hannounced,
        congrArg _ (hs.unique hlook (h.owns he))⟩
    · exact ⟨e.1, _, .inl (h.told e he), rfl, rfl⟩

theorem arranged (h : s.Announces fresh s₁) (hs : s.Arranged loose) : s₁.Arranged loose := by
  refine hs.inherit h.basePath (h.tables ▸ .refl _) ?_ ?_
  · intro t look ht
    have hnone := hs.gone t look ht
    rw [h.others t, hnone]
    rintro e he rfl
    rw [ContactList.look?, h.there e he] at hnone
    cases hnone
  · intro t look hlook
    rcases (h.owns_iff hs t look).mp hlook with ⟨hlook, -⟩ | ⟨e, he, rfl, rfl⟩
    · exact ⟨look, hlook, rfl, rfl⟩
    · exact ⟨e.2.look, h.owns he, rfl, rfl⟩

/-- Clients are told of new channels in one batch. -/
theorem accounted (h : s.Announces fresh s₁) (hs : s.Accounted start loose)
    {batch : List (ChannelDetails × List RequestToken)}
    (hpaths : batch.map (·.1.path) = fresh.map (·.2.path))
    (heffects : s₁.effects = s.effects ++ [.report (.newChannels batch)]) :
    s₁.Accounted start loose := by
  obtain ⟨known, hvoices, hknown⟩ := hs.voiced
  refine ⟨h.arranged hs.arranged, known.union (.ofList (batch.map (·.1.path))), ?_, fun p => ?_⟩
  · rw [heffects]
    refine hvoices.announce (hpaths ▸ h.nodup_paths hs.arranged) fun p hp hmem => ?_
    obtain ⟨e, he, rfl⟩ := List.mem_map.mp (hpaths ▸ hp)
    exact h.not_announced hs.arranged he ((hknown _).mp hmem)
  · rw [SortedSet.mem_union, SortedSet.mem_ofList, hknown, hpaths, h.announced_iff hs.arranged]

end Announces

/-- When everything is announced, exactly the channels are that were not. -/
theorem announcePending_cases (s : ContactScene σ) :
    s.announcePending = s ∨
      ∃ fresh batch, s.Announces fresh s.announcePending ∧
        batch.map (·.1.path) = fresh.map (·.2.path) ∧
        s.announcePending.effects = s.effects ++ [.report (.newChannels batch)] := by
  have hlook : ∀ t, ((s.list.channels.mapValues fun _ c =>
      if c.announced then c else c.announce).get? t).map ContactChannel.look =
        (s.list.look? t).map fun look => { look with announced := true } := by
    intro t
    rw [SortedMap.get?_mapValues, ContactList.look?, Option.map_map, Option.map_map]
    congr 1
    funext c
    by_cases hc : c.announced = true
    · simp [ContactChannel.look, hc]
    · simp [ContactChannel.look, ContactChannel.announce, hc]
  have hmem : ∀ {e}, e ∈ s.list.channels.toList.filter (fun e => !e.2.announced) ↔
      s.list.channels.get? e.1 = some e.2 ∧ e.2.announced = false := by
    intro e
    rw [List.mem_filter, ← SortedMap.get?_eq_some_iff, Bool.not_eq_true']
  unfold announcePending
  dsimp only
  split
  · exact .inl rfl
  · refine .inr ⟨s.list.channels.toList.filter fun e => !e.2.announced, _,
      ⟨s.list.channels.nodup_toList.filter _, fun e he => (hmem.mp he).1,
        fun e he => (hmem.mp he).2, fun e he => ?_, fun t hout => ?_, rfl, rfl⟩, ?_, rfl⟩
    · refine (hlook e.1).trans ?_
      rw [ContactList.look?, (hmem.mp he).1]
      rfl
    · refine (hlook t).trans ?_
      cases hc : s.list.channels.get? t with
      | none => rw [ContactList.look?, hc]; rfl
      | some c =>
        have hannounced : c.announced = true := by
          cases ha : c.announced with
          | true => rfl
          | false => exact absurd rfl (hout (t, c) (hmem.mpr ⟨hc, ha⟩))
        rw [ContactList.look?, hc]
        simp [ContactChannel.look, hannounced]
    · rw [List.map_map]
      rfl

theorem Accounted.announcePending (h : s.Accounted start loose) :
    s.announcePending.Accounted start loose := by
  rcases s.announcePending_cases with hsame | ⟨fresh, batch, hannounces, hpaths, heffects⟩
  · rwa [hsame]
  · exact hannounces.accounted h hpaths heffects

/-- The channel of a group that was just created is announced on its own. -/
theorem Accounted.announceFor (h : s.Accounted start loose) {t : ContactTarget} {c : ContactChannel}
    (hc : s.list.channels.get? t = some c) (huntold : c.announced = false) (token : RequestToken) :
    (s.announceFor t token).Accounted start loose := by
  have hannounces : s.Announces [(t, c)] (s.announceFor t token) := by
    unfold ContactScene.announceFor
    rw [hc]
    refine ⟨by simp, ?_, ?_, ?_, ?_, rfl, rfl⟩
    · exact fun e he => List.mem_singleton.mp he ▸ hc
    · exact fun e he => List.mem_singleton.mp he ▸ huntold
    · intro e he
      obtain rfl := List.mem_singleton.mp he
      exact (ContactList.look?_put _ _ _ _).trans (if_pos rfl)
    · intro t' hout
      refine (ContactList.look?_put _ _ _ _).trans (if_neg fun heq => ?_)
      exact hout (t, c) List.mem_cons_self heq.symm
  have heffects : (s.announceFor t token).effects =
      s.effects ++ [.report (.newChannels [(c.details t, c.queued ++ [token])])] := by
    unfold ContactScene.announceFor
    rw [hc]
    rfl
  exact hannounces.accounted h rfl heffects

/-! ## Channels go -/

/-- A channel that is taken away is loose. -/
theorem Accounted.detach (h : s.Accounted start none) {t : ContactTarget} {c : ContactChannel}
    (hc : s.list.channels.get? t = some c) :
    (s.detach t).Accounted start (some (t, c.look)) := by
  have hlook : s.list.look? t = some c.look := ContactList.look?_eq_some.mpr ⟨c, hc, rfl⟩
  have howns : ∀ t' look, (s.detach t).Owns (some (t, c.look)) t' look ↔ s.Owns none t' look := by
    intro t' look
    simp only [Owns, ContactScene.detach, ContactList.look?_remove]
    split
    case isTrue heq =>
      subst heq
      simp [hlook]
    case isFalse hne =>
      simp [Ne.symm hne]
  obtain ⟨known, hvoices, hknown⟩ := h.voiced
  refine ⟨h.arranged.inherit rfl (.refl _) ?_ fun t' look hlook =>
    ⟨look, (howns t' look).mp hlook, rfl, rfl⟩, known, hvoices, fun p => (hknown p).trans ?_⟩
  · rintro t' look heq
    cases heq
    exact (ContactList.look?_remove _ _ _).trans (if_pos rfl)
  · simp only [Announced, howns]

section Loose

variable {t : ContactTarget} {look : ChannelLook}

theorem owns_loose (s : ContactScene σ) (t' : ContactTarget) (look' : ChannelLook) :
    s.Owns (some (t, look)) t' look' ↔ s.Owns none t' look' ∨ t' = t ∧ look' = look := by
  simp [Owns, eq_comm]

theorem announced_loose (s : ContactScene σ) (p : ObjectPath) :
    s.Announced (some (t, look)) p ↔
      s.Announced none p ∨ look.announced = true ∧ look.path = p := by
  simp only [Announced, owns_loose]
  constructor
  · rintro ⟨t', look', hlook | ⟨rfl, rfl⟩, hannounced⟩
    · exact .inl ⟨t', look', hlook, hannounced⟩
    · exact .inr hannounced
  · rintro (⟨t', look', hlook, hannounced⟩ | hannounced)
    · exact ⟨t', look', .inl hlook, hannounced⟩
    · exact ⟨t, look, .inr ⟨rfl, rfl⟩, hannounced⟩

/-- The loose channel is forgotten. -/
theorem Arranged.forget (h : s.Arranged (some (t, look))) : s.Arranged none :=
  h.inherit rfl (.refl _) (fun _ _ heq => nomatch heq) fun t' look' hlook =>
    ⟨look', (owns_loose s t' look').mpr (.inl hlook), rfl, rfl⟩

theorem Arranged.not_announced_loose (h : s.Arranged (some (t, look))) :
    ¬ s.Announced none look.path := by
  rintro ⟨t', look', hlook, -, hpath⟩
  have hlisted : s.list.look? t' = some look' := hlook.resolve_right fun heq => nomatch heq
  obtain rfl := h.apart t' look' t look (.inl hlisted) (.inr rfl) hpath
  rw [h.gone t' look rfl] at hlisted
  cases hlisted

end Loose

/-- When the loose channel is closed, clients who know of it are told. -/
theorem Accounted.close {t : ContactTarget} {c : ContactChannel}
    (h : s.Accounted start (some (t, c.look))) (e : Error) :
    (s.close t c e).Accounted start none := by
  have hfailed : ((s.fail c.queued e).releaseChannel t c).Accounted start (some (t, c.look)) := by
    refine h.quietly rfl ?_ (fun _ => rfl) rfl fun effect he => ?_
    · exact (HandleTables.evolves_release _ _).trans (HandleTables.evolves_exchangeContacts _ _ _)
    · obtain ⟨token, -, rfl⟩ := List.mem_map.mp he
      trivial
  unfold ContactScene.close
  dsimp only
  generalize (s.fail c.queued e).releaseChannel t c = s₁ at hfailed
  have hleft := hfailed.arranged.not_announced_loose
  obtain ⟨known, hvoices, hknown⟩ := hfailed.voiced
  simp only [announced_loose] at hknown
  split
  case isTrue hannounced =>
    have hmem : c.path ∈ known := (hknown _).mpr (.inr ⟨hannounced, rfl⟩)
    refine ⟨hfailed.arranged.forget.inherit rfl (.refl _) (fun _ _ heq => nomatch heq)
      (fun t' look hlook => ⟨look, hlook, rfl, rfl⟩), known.erase c.path, ?_, fun p => ?_⟩
    · have hclosed := hvoices.close hmem
      rwa [List.append_cons] at hclosed
    · refine SortedSet.mem_erase.trans ?_
      rw [hknown]
      constructor
      · rintro ⟨hlisted | ⟨-, hpath⟩, hne⟩
        · exact hlisted
        · exact absurd hpath.symm hne
      · intro hlisted
        refine ⟨.inl hlisted, ?_⟩
        rintro rfl
        exact hleft hlisted
  case isFalse huntold =>
    refine ⟨hfailed.arranged.forget, known, hvoices, fun p => (hknown p).trans ?_⟩
    exact or_iff_left fun h => huntold h.1

/-! ## Quiet deeds -/

theorem Accounted.call (h : s.Accounted start loose) (server : ContactServer σ) (m : Mutation) :
    (s.call server m).2.Accounted start loose :=
  h.quietly rfl (HandleTables.evolves_exchangeContacts _ _ _) (fun _ => rfl) rfl
    fun _ he => List.mem_singleton.mp he ▸ trivial

theorem Accounted.fail (h : s.Accounted start loose) (tokens : List RequestToken) (e : Error) :
    (s.fail tokens e).Accounted start loose :=
  h.quietly rfl (.refl _) (fun _ => rfl) rfl fun effect he => by
    obtain ⟨token, -, rfl⟩ := List.mem_map.mp he
    trivial

theorem isQuiet_change (m : Membership) (c : MembershipChange) (path : ObjectPath) :
    ∀ e ∈ (m.change c).signal.toList.map (Effect.signal path), e.IsQuiet := by
  intro e he
  obtain ⟨signal, hsignal, rfl⟩ := List.mem_map.mp he
  obtain ⟨moved, rfl⟩ := membersChanged_of_change hsignal
  trivial

theorem Accounted.change (h : s.Accounted start loose) (t : ContactTarget) (b : MembershipChange) :
    (s.change t b).Accounted start loose := by
  unfold ContactScene.change updateMembership
  split
  · exact h
  case h_2 c hc =>
    exact h.quietly rfl (HandleTables.evolves_exchangeContacts _ _ _)
      (ContactList.look?_put_same hc rfl) rfl (isQuiet_change c.membership b c.path)

theorem Accounted.satisfy (h : s.Accounted start loose) (t : ContactTarget) (token : RequestToken) :
    (s.satisfy t token).Accounted start loose := by
  unfold ContactScene.satisfy
  split
  · exact h
  case h_2 c hc =>
    split
    · exact h.quietly rfl (.refl _) (fun _ => rfl) rfl fun _ he =>
        List.mem_singleton.mp he ▸ trivial
    · exact h.quietly rfl (.refl _) (ContactList.look?_put_same hc rfl)
        (List.append_nil _).symm fun e he => nomatch he

theorem Accounted.dismiss {t : ContactTarget} {c : ContactChannel}
    (h : s.Accounted start (some (t, c.look))) (reason : ChangeReason) (e : Error) :
    (s.dismiss t c reason e).Accounted start none := by
  unfold ContactScene.dismiss
  refine Accounted.close (c := { c with membership := (c.membership.removeAll reason).membership })
    ?_ e
  exact h.quietly rfl (HandleTables.evolves_exchangeContacts _ _ _) (fun _ => rfl) rfl
    (isQuiet_change c.membership _ c.path)

/-! ## Deeds -/

theorem accounted_foldl {α : Type} {f : ContactScene σ → α → ContactScene σ}
    (hf : ∀ (s : ContactScene σ) a, s.Accounted start loose → (f s a).Accounted start loose)
    (l : List α) (h : s.Accounted start loose) : (l.foldl f s).Accounted start loose :=
  List.foldl_rel_of_step (R := fun s s' => s.Accounted start loose → s'.Accounted start loose)
    (fun _ => id) (fun h h' hs => h' (h hs)) hf l s h

namespace Accounted

theorem tryOpen (h : s.Accounted start loose) {t : ContactTarget}
    (hloose : ∀ look, loose ≠ some (t, look)) : (s.tryOpen t).Accounted start loose := by
  unfold ContactScene.tryOpen
  split
  case h_1 hopen => exact h.opening hloose hopen
  case h_2 => exact h

theorem tryOpenGroups (h : s.Accounted start none) (names : List String) :
    (s.tryOpenGroups names).Accounted start none :=
  accounted_foldl (fun _ _ h => h.tryOpen (by simp)) names h

theorem closeGroup (h : s.Accounted start none) (name : String) :
    (s.closeGroup name).Accounted start none := by
  unfold ContactScene.closeGroup
  split
  · exact h
  case h_2 c hc => exact (h.detach hc).dismiss _ _

theorem abandonGroup (e : Error) (h : s.Accounted start none) (name : String) :
    (s.abandonGroup e name).Accounted start none := by
  unfold ContactScene.abandonGroup
  split
  · exact h
  case h_2 c hc => exact (h.detach hc).close e

/-- While a group is moved, the new channel has another path than the old one, since the names
differ. -/
theorem moveGroup (h : s.Accounted start none) {old target : String} (hne : old ≠ target) :
    (s.moveGroup old target).Accounted start none := by
  unfold ContactScene.moveGroup
  split
  · exact h
  case h_2 c hc =>
    have hopened := (h.detach hc).tryOpen (t := .group target) (by simp [hne])
    exact ((hopened.announcePending).change _ _).dismiss _ _

theorem settleRequestedGroups (h : s.Accounted start none) (server : ContactServer σ)
    (known : List String) : (s.settleRequestedGroups server known).Accounted start none := by
  have hclose : ∀ (e : Error) (names : List String) {s : ContactScene σ},
      s.Accounted start none → (names.foldl (ContactScene.abandonGroup e) s).Accounted start none :=
    fun e names {_} h => accounted_foldl (fun _ name h => h.abandonGroup e name) names h
  unfold ContactScene.settleRequestedGroups
  split
  · exact h
  case h_2 first rest _ =>
    by_cases heditable : s.list.capabilities.groups.isEditable = true
    · simp only [if_pos heditable]
      split
      · exact h.call server _
      · exact hclose _ _ (h.call server _)
    · simp only [if_neg heditable]
      exact hclose _ _ h

theorem fillChannels (h : s.Accounted start none) (server : ContactServer σ)
    (contacts : SortedSet Handle) : (s.fillChannels server contacts).Accounted start none := by
  have happlied : (s.applyContacts server contacts .empty).Accounted start none :=
    (accounted_foldl (fun _ _ h => h.change _ _) _ ((h.change _ _).change _ _)).change _ _
  have hblocked : ∀ {s : ContactScene σ}, s.Accounted start none →
      (s.loadBlocked server).Accounted start none := by
    intro s h
    unfold ContactScene.loadBlocked
    split
    · exact h.change _ _
    · exact h
  have hmembers : ∀ {s : ContactScene σ}, s.Accounted start none →
      (s.loadGroupMembers server contacts).Accounted start none := by
    intro s h
    unfold ContactScene.loadGroupMembers
    split
    · exact accounted_foldl (fun _ (e : String × SortedSet Handle) h => h.change (.group e.1) _) _
        (h.tryOpenGroups _)
    · exact h
  exact hmembers (hblocked happlied)

theorem openLists (h : s.Accounted start none) : s.openLists.Accounted start none :=
  accounted_foldl (fun _ k h => h.tryOpen (t := .list k) (by simp)) _ h

theorem loadRoster (h : s.Accounted start none) (server : ContactServer σ) :
    (s.loadRoster server).Accounted start none := by
  have harrived : ContactScene.Accounted start none
      { s with list := { s.list with roster := .received } } :=
    h.quietly rfl (.refl _) (fun _ => rfl) (List.append_nil _).symm fun _ he => nomatch he
  exact (((harrived.openLists.tryOpenGroups _).settleRequestedGroups server _).fillChannels server
    _).announcePending

theorem rosterFailed (h : s.Accounted start none) (e : Error) :
    (s.rosterFailed e).Accounted start none := by
  unfold ContactScene.rosterFailed
  split
  · refine Accounted.fail ?_ _ e
    refine h.quietly rfl (.refl _) (fun t => ?_) (List.append_nil _).symm fun _ he => nomatch he
    rw [ContactList.look?, SortedMap.get?_mapValues, Option.map_map]
    rfl
  · exact h

end Accounted

/-- To open channels takes no effects. -/
theorem effects_openLists (s : ContactScene σ) : s.openLists.effects = s.effects := by
  refine List.foldl_rel_of_step (R := fun s s' : ContactScene σ => s'.effects = s.effects)
    (fun _ => rfl) (fun h h' => h'.trans h) (fun s k => ?_) _ s
  rcases s.tryOpen_cases (.list k) with hsame | ⟨r, c, -, -, hnew, -⟩
  · rw [hsame]
  · rw [hnew]

/-- Every deed keeps the account right, if groups are moved between different names. -/
theorem Deed.accounted (hdeed : Deed server anybody (· ≠ ·) s s₁)
    (h : s.Accounted start none) : s₁.Accounted start none := by
  have hloose : ∀ {t : ContactTarget} (look : ChannelLook),
      (none : Option (ContactTarget × ChannelLook)) ≠ some (t, look) := by simp
  cases hdeed with
  | call hm => exact h.call server _
  | change t hc => exact h.change t _
  | fail tokens e => exact h.fail tokens e
  | create hfollows names => exact (h.tryOpenGroups names).announcePending
  | closeGroup name => exact h.closeGroup name
  | moveGroup hM => exact h.moveGroup hM
  | satisfy hc token => exact h.satisfy _ token
  | serve hcheck hopen => exact (h.opening hloose hopen).satisfy _ _
  | await hcheck hnone hroster hopen => exact (h.opening hloose hopen).satisfy _ _
  | @grant _ name hnone hroster hopen token =>
    rcases openChannel_eq_ok hopen with ⟨-, hthere⟩ | ⟨r, c, -, hvacant, rfl, -⟩
    · obtain ⟨c, hc⟩ := ContactList.hasChannel_iff.mp hthere
      cases hnone.symm.trans hc
    · exact (h.opening hloose hopen).announceFor (SortedMap.get?_insert_self _ _ _)
        hvacant.unannounced token
  | load hroster => exact h.loadRoster server
  | lament hroster e => exact h.rosterFailed e

/-- An operation that moves no group to its own name keeps the account right. -/
theorem accounted_perform {op : ContactOperation (SortedSet Handle)}
    (hop : ∀ old target, op.renaming? server.normaliseGroup = some (old, target) → old ≠ target)
    (h : s.Accounted start none) : (s.perform server op).2.Accounted start none :=
  (deeds_perform (M := (· ≠ ·)) s (within_anybody s op) hop).keeps (I := Accounted start none)
    Deed.accounted h

theorem accounted_offer (r : ChannelRequest) (h : s.Accounted start none) :
    (s.offer server r).2.Accounted start none :=
  (deeds_offer (X := anybody) (M := (· ≠ ·)) s r).keeps (I := Accounted start none)
    Deed.accounted h

end ContactScene

end Telepathy
