import Telepathy.Connection.Event
import Telepathy.Connection.Lifecycle
import Telepathy.Proofs.Connection.InterestCounts
import Telepathy.Proofs.Connection.Interests

set_option autoImplicit false

/-!
# What is done about interests

Of all that a connection is, little concerns the interests of clients: its table of declarations,
the clients it has the bus watch, and of its events those by which clients are watched and the
backend learns what is wanted. This much is an `Attention`, a machine of its own, which moves when
clients declare, withdraw or vanish, and once when everything is forgotten.

While it goes on, the machine minds the declarations that were made and not taken back: it keeps
them, watches the clients behind them, and what it tells of a client or a token takes turns. Once
everything is forgotten it is at rest, and nothing but a declaration would move it.
-/

namespace Telepathy

open InterestTable (Alternates)

/-! ## Attention -/

/-- An event that is about the interests of clients. -/
def Event.isNotice : Event → Bool
  | .watched _ | .unwatched _ | .hook (.interested _) | .hook (.uninterested _) => true
  | _ => false

/-- What the backend is told of a token, whether it has become wanted. -/
def Event.hookOf? (token : String) : Event → Option Bool
  | .hook (.interested token') => if token' = token then some true else none
  | .hook (.uninterested token') => if token' = token then some false else none
  | _ => none

/-- What the bus is told of a client, whether to watch it. -/
def Event.watchOf? (client : ClientName) : Event → Option Bool
  | .watched client' => if client' = client then some true else none
  | .unwatched client' => if client' = client then some false else none
  | _ => none

/-- What the bus is told by a decision on watching. -/
def Watch.said : Watch → List Bool
  | .keep => []
  | .start => [true]
  | .stop => [false]

theorem Bus.watched_unwatchAll (clients : List ClientName) (b : Bus) :
    (clients.foldl Bus.unwatch b).watched = clients.foldl SortedSet.erase b.watched := by
  induction clients generalizing b with
  | nil => rfl
  | cons client clients ih => exact ih _

/-- What a connection knows of the interests of clients, and what it has done about them. -/
structure Attention where
  interests : InterestTable
  watched : SortedSet ClientName
  /-- The events so far that are about interests. -/
  notices : List Event

namespace Attention

variable {a : Attention} {possible : List String} {d d' : Declarations}

/-- Nobody has declared anything. -/
def new (possible : List String) : Attention := ⟨.new possible, .empty, []⟩

/-- What the backend was told of a token so far. -/
def hooks (a : Attention) (token : String) : List Bool := a.notices.filterMap (·.hookOf? token)

/-- What the bus was told of a client so far. -/
def watchCalls (a : Attention) (client : ClientName) : List Bool :=
  a.notices.filterMap (·.watchOf? client)

/-- Begins to watch a client, or ceases to. -/
def watchAs (a : Attention) (client : ClientName) : Watch → Attention
  | .keep => a
  | .start =>
    { a with watched := a.watched.insert client, notices := a.notices ++ [.watched client] }
  | .stop =>
    { a with watched := a.watched.erase client, notices := a.notices ++ [.unwatched client] }

/-- Takes over a change of interest. -/
def apply (a : Attention) (client : ClientName) (change : InterestTable × InterestUpdate) :
    Attention :=
  let next := { a with interests := change.1 }.watchAs client change.2.watch
  { next with
    notices := next.notices ++ change.2.transitions.map fun t => .hook (Connection.interestHook t) }

/-- Forgets all interests, and watches nobody any longer. -/
def forget (a : Attention) : Attention where
  interests := a.interests.clear.1
  watched := a.interests.clear.2.foldl SortedSet.erase a.watched
  notices := a.notices ++ a.interests.clear.2.map .unwatched

/-- Deals with a call that changes the interests of clients. -/
def perform (a : Attention) : InterestOperation → Attention
  | .add client tokens => a.apply client (a.interests.add client tokens)
  | .remove client tokens => a.apply client (a.interests.remove client tokens)
  | .vanish client => a.apply client (a.interests.vanish client)
  | .clear => a.forget

/-! ## Minding the declarations -/

/-- The connection minds these declarations: it keeps them, watches those who made them, and has
told the bus and the backend so by turns. -/
structure Minds (possible : List String) (d : Declarations) (a : Attention) : Prop where
  possible : a.interests.possible = .ofList possible
  keeps : a.interests.Keeps d
  watched : ∀ client, client ∈ a.watched ↔ d.Present client
  calls : ∀ client b, (b = true ↔ client ∈ a.watched) →
    Alternates false (a.watchCalls client) b
  hooks : ∀ token, Alternates false (a.hooks token) (a.interests.isWanted token)

theorem minds_new (possible : List String) :
    (new possible).Minds possible Declarations.none where
  possible := rfl
  keeps := InterestTable.keeps_new possible
  watched client := by
    refine ⟨fun h => absurd h (SortedSet.not_mem_empty client), ?_⟩
    rintro ⟨token, hpos⟩
    exact absurd hpos (Nat.lt_irrefl 0)
  calls client b hb := by
    rw [Bool.eq_false_iff.mpr (mt hb.mp (SortedSet.not_mem_empty client))]
    exact .nil false
  hooks token := .nil false

@[simp] theorem interests_watchAs (a : Attention) (client : ClientName) (w : Watch) :
    (a.watchAs client w).interests = a.interests := by
  cases w <;> rfl

theorem interests_apply (a : Attention) (client : ClientName)
    (change : InterestTable × InterestUpdate) : (a.apply client change).interests = change.1 :=
  interests_watchAs _ client _

theorem watched_apply (a : Attention) (client : ClientName)
    (change : InterestTable × InterestUpdate) :
    (a.apply client change).watched = (a.watchAs client change.2.watch).watched := by
  unfold apply watchAs
  cases change.2.watch <;> rfl

/-- The hooks that a change of interest calls say what its transitions say. -/
theorem hooks_apply (a : Attention) (client : ClientName)
    (change : InterestTable × InterestUpdate) (token : String) :
    (a.apply client change).hooks token =
      a.hooks token ++ InterestTable.turns token change.2.transitions := by
  have hhook : ∀ t, (Event.hook (Connection.interestHook t)).hookOf? token = t.turn? token := by
    intro t
    cases t <;> rfl
  have hwatch : ({ a with interests := change.1 }.watchAs client change.2.watch).hooks token =
      a.hooks token := by
    cases change.2.watch <;> simp [watchAs, hooks, Event.hookOf?]
  have hsaid : (change.2.transitions.map fun t =>
      Event.hook (Connection.interestHook t)).filterMap (·.hookOf? token) =
      InterestTable.turns token change.2.transitions := by
    rw [List.filterMap_map]
    exact congrArg (List.filterMap · _) (funext hhook)
  rw [hooks, apply, List.filterMap_append, hsaid]
  exact congrArg (· ++ _) hwatch

/-- Of the calls about watching, a change of interest makes the one that its answer asks for. -/
theorem watchCalls_apply (a : Attention) (client : ClientName)
    (change : InterestTable × InterestUpdate) (client' : ClientName) :
    (a.apply client change).watchCalls client' =
      (a.watchAs client change.2.watch).watchCalls client' := by
  have hhooks : (change.2.transitions.map fun t =>
      Event.hook (Connection.interestHook t)).filterMap (·.watchOf? client') = [] := by
    refine List.filterMap_eq_nil_iff.mpr fun e he => ?_
    obtain ⟨t, -, rfl⟩ := List.mem_map.mp he
    rfl
  rw [watchCalls, apply, List.filterMap_append, hhooks, List.append_nil]
  unfold watchAs
  cases change.2.watch <;> rfl

theorem watchCalls_watchAs (a : Attention) (client : ClientName) (w : Watch)
    (client' : ClientName) :
    (a.watchAs client w).watchCalls client' =
      a.watchCalls client' ++ if client' = client then w.said else [] := by
  by_cases heq : client' = client
  · cases w <;> simp [watchAs, watchCalls, Watch.said, Event.watchOf?, heq]
  · cases w <;> simp [watchAs, watchCalls, Event.watchOf?, heq, Ne.symm heq]

theorem mem_watched_watchAs_of_ne {client client' : ClientName} (h : client' ≠ client) (w : Watch) :
    client' ∈ (a.watchAs client w).watched ↔ client' ∈ a.watched := by
  cases w with
  | keep => exact .rfl
  | start => exact SortedSet.mem_insert.trans (or_iff_right h)
  | stop => exact SortedSet.mem_erase.trans (and_iff_left h)

/-- An answer that says when its client comes and goes has the right clients watched, and none of
them twice. -/
theorem Minds.watchAs (h : a.Minds possible d) {client : ClientName} {w : Watch}
    (hw : Declarations.Watches d d' client w)
    (hothers : ∀ client', client' ≠ client → (d'.Present client' ↔ d.Present client'))
    (client' : ClientName) :
    (client' ∈ (a.watchAs client w).watched ↔ d'.Present client') ∧
      ∀ b, (b = true ↔ client' ∈ (a.watchAs client w).watched) →
        Alternates false ((a.watchAs client w).watchCalls client') b := by
  by_cases heq : client' = client
  · subst heq
    rw [watchCalls_watchAs, if_pos rfl]
    cases w with
    | keep =>
      refine ⟨(h.watched client').trans hw, fun b hb => ?_⟩
      exact (h.calls client' b hb).append (.nil b)
    | start =>
      obtain ⟨hcame, hpresent⟩ := hw
      have hnot : client' ∉ a.watched := fun hmem => hcame ((h.watched client').mp hmem)
      have hmem : client' ∈ a.watched.insert client' := SortedSet.mem_insert.mpr (.inl rfl)
      refine ⟨iff_of_true hmem hpresent, fun b hb => ?_⟩
      rw [hb.mpr hmem]
      exact (h.calls client' false (by simp [hnot])).append (.cons (.nil true))
    | stop =>
      obtain ⟨hpresent, hwent⟩ := hw
      have hmem : client' ∈ a.watched := (h.watched client').mpr hpresent
      have hnot : client' ∉ a.watched.erase client' := fun hmem =>
        (SortedSet.mem_erase.mp hmem).2 rfl
      refine ⟨iff_of_false hnot hwent, fun b hb => ?_⟩
      rw [Bool.eq_false_iff.mpr (mt hb.mp hnot)]
      exact (h.calls client' true (by simp [hmem])).append (.cons (.nil false))
  · have hsame := mem_watched_watchAs_of_ne (a := a) heq w
    rw [watchCalls_watchAs, if_neg heq, List.append_nil]
    exact ⟨hsame.trans ((h.watched client').trans (hothers client' heq).symm),
      fun b hb => h.calls client' b (hb.trans hsame)⟩

/-- A change of interest that keeps the declarations, and answers as it is to, is minded. -/
theorem Minds.apply (h : a.Minds possible d) {client : ClientName}
    {change : InterestTable × InterestUpdate}
    (hpossible : change.1.possible = a.interests.possible) (hkeeps : change.1.Keeps d')
    (htells : Declarations.Tells d d' change.2.transitions)
    (hwatches : Declarations.Watches d d' client change.2.watch)
    (hothers : ∀ client', client' ≠ client → (d'.Present client' ↔ d.Present client')) :
    (a.apply client change).Minds possible d' := by
  have hwatch := fun client' => h.watchAs hwatches hothers client'
  refine ⟨?_, ?_, fun client' => ?_, fun client' => ?_, fun token => ?_⟩
  · rw [interests_apply, hpossible, h.possible]
  · rw [interests_apply]
    exact hkeeps
  · rw [watched_apply]
    exact (hwatch client').1
  · intro b
    rw [watchCalls_apply, watched_apply]
    exact (hwatch client').2 b
  · rw [hooks_apply, interests_apply]
    exact (h.hooks token).append
      (InterestTable.alternates_turns htells h.keeps.isWanted_iff hkeeps.isWanted_iff)

/-- Whether a client is present depends on its own declarations only. -/
theorem present_congr {client : ClientName} (h : d' client = d client) :
    d'.Present client ↔ d.Present client := by
  simp only [Declarations.Present, h]

theorem foldl_declare_of_ne {client client' : ClientName} (h : client' ≠ client)
    (tokens : List String) (d : Declarations) :
    tokens.foldl (Declarations.declare client) d client' = d client' := by
  induction tokens generalizing d with
  | nil => rfl
  | cons token tokens ih => exact (ih _).trans (Declarations.set_of_ne h)

/-- A call by which clients declare, withdraw or vanish is minded. -/
theorem Minds.perform (h : a.Minds possible d) {op : InterestOperation} (hop : op ≠ .clear) :
    (a.perform op).Minds possible (d.perform possible op) := by
  obtain ⟨hpossible, hkeeps, hanswers⟩ := h.keeps.perform h.possible op
  cases op with
  | add client tokens =>
    exact h.apply hpossible hkeeps hanswers.2.1 hanswers.2.2 fun client' hne =>
      present_congr (foldl_declare_of_ne hne _ d)
  | remove client tokens =>
    exact h.apply hpossible hkeeps hanswers.2.1 hanswers.2.2 fun client' hne =>
      present_congr (Declarations.foldl_withdraw_of_ne hne tokens d)
  | vanish client =>
    exact h.apply hpossible hkeeps hanswers.2.1 hanswers.2.2 fun client' hne =>
      present_congr (funext fun token => if_neg hne)
  | clear => exact absurd rfl hop

/-! ## At rest -/

/-- Nothing is declared any more and nobody is watched. The bus was told so; the backend was not,
for all it needs to know then is that the connection is gone. -/
structure AtRest (a : Attention) : Prop where
  holders : a.interests.holders = .empty
  declared : a.interests.declared = .empty
  watched : ∀ client, client ∉ a.watched
  calls : ∀ client, Alternates false (a.watchCalls client) false
  hooks : ∀ token, ∃ b, Alternates false (a.hooks token) b

/-- Of a list of different clients, each is told of once when they are let go. -/
theorem watchOf_unwatched {clients : List ClientName} (h : clients.Nodup) (client : ClientName) :
    (clients.map Event.unwatched).filterMap (·.watchOf? client) =
      if client ∈ clients then [false] else [] := by
  induction clients with
  | nil => rfl
  | cons first clients ih =>
    obtain ⟨hnot, hnodup⟩ := List.nodup_cons.mp h
    rw [List.map_cons, List.filterMap_cons, ih hnodup]
    by_cases heq : first = client
    · subst heq
      simp [Event.watchOf?, hnot]
    · simp [Event.watchOf?, heq, Ne.symm heq]

/-- To forget all interests puts a connection that minded them at rest. -/
theorem Minds.forget (h : a.Minds possible d) : a.forget.AtRest := by
  have hclients : ∀ client, client ∈ a.interests.clients ↔ client ∈ a.watched := fun client =>
    SortedMap.mem_keys.trans (h.keeps.contains_declared.trans (h.watched client).symm)
  have hnodup : a.interests.clients.Nodup := a.interests.declared.nodup_keys
  have hgone : ∀ client, client ∉ a.forget.watched := by
    intro client hmem
    have hleft := Bus.watched_unwatchAll a.interests.clients ⟨.empty, .empty, a.watched⟩
    have hmem : client ∈ a.interests.clients.foldl SortedSet.erase a.watched := hmem
    rw [← hleft, Bus.mem_watched_unwatchAll, hclients] at hmem
    exact hmem.2 hmem.1
  refine ⟨rfl, rfl, hgone, fun client => ?_,
    fun token => ⟨a.interests.isWanted token, ?_⟩⟩
  · have hsaid : a.forget.watchCalls client =
        a.watchCalls client ++ if client ∈ a.interests.clients then [false] else [] := by
      rw [← watchOf_unwatched hnodup]
      exact List.filterMap_append
    rw [hsaid]
    by_cases hmem : client ∈ a.watched
    · rw [if_pos ((hclients client).mpr hmem)]
      exact (h.calls client true (by simp [hmem])).append (.cons (.nil false))
    · rw [if_neg (mt (hclients client).mp hmem)]
      exact (h.calls client false (by simp [hmem])).append (.nil false)
  · have hsaid : a.forget.hooks token = a.hooks token := by
      have hnone : (a.interests.clients.map Event.unwatched).filterMap (·.hookOf? token) = [] := by
        refine List.filterMap_eq_nil_iff.mpr fun e he => ?_
        obtain ⟨client, -, rfl⟩ := List.mem_map.mp he
        rfl
      rw [Attention.hooks, Attention.forget, List.filterMap_append]
      exact (congrArg (_ ++ ·) hnone).trans (List.append_nil _)
    rw [hsaid]
    exact h.hooks token

theorem apply_keep (a : Attention) (client : ClientName) :
    a.apply client (a.interests, ⟨[], .keep⟩) = a := by
  simp [apply, watchAs]

/-- There is nothing to withdraw then, and nobody to vanish. -/
theorem AtRest.perform (h : a.AtRest) {op : InterestOperation} (hclear : op ≠ .clear)
    (hadd : ∀ client tokens, op ≠ .add client tokens) : a.perform op = a := by
  cases op with
  | add client tokens => exact absurd rfl (hadd client tokens)
  | remove client tokens =>
    have hnothing : a.interests.remove client tokens = (a.interests, ⟨[], .keep⟩) := by
      unfold InterestTable.remove
      rw [h.declared]
      rfl
    exact (congrArg (a.apply client) hnothing).trans (a.apply_keep client)
  | vanish client =>
    have hnothing : a.interests.vanish client = (a.interests, ⟨[], .keep⟩) := by
      unfold InterestTable.vanish
      rw [h.declared]
      rfl
    exact (congrArg (a.apply client) hnothing).trans (a.apply_keep client)
  | clear => exact absurd rfl hclear

end Attention

end Telepathy
