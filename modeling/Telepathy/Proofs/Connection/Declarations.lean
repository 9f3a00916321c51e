import Telepathy.Connection.Interest

set_option autoImplicit false

/-!
# Declarations of interest

What the interests of clients come to is said by one function, which gives for a client and a token
the number of declarations that were made and not taken back. A token is wanted while some client
holds it. What an operation is to answer follows from what it makes of the function: it names the
tokens that turn wanted or unwanted, in the order in which they do, and says whether its client came
or went.
-/

namespace Telepathy

/-- How often each client has declared each token without taking it back. -/
abbrev Declarations := ClientName → String → Nat

/-- A call that changes the interests of clients. -/
inductive InterestOperation
  | add (client : ClientName) (tokens : List String)
  | remove (client : ClientName) (tokens : List String)
  | vanish (client : ClientName)
  | clear
deriving Repr

/-- What such a call answers. -/
inductive InterestAnswer
  | updated (u : InterestUpdate)
  | cleared (clients : List ClientName)

/-- The token that changed. -/
def InterestTransition.token : InterestTransition → String
  | .interested token => token
  | .uninterested token => token

/-- What a transition says of a token, whether it turned wanted. -/
def InterestTransition.turn? (token : String) : InterestTransition → Option Bool
  | .interested token' => if token' = token then some true else none
  | .uninterested token' => if token' = token then some false else none

theorem InterestTransition.turn?_eq_some {token : String} {transition : InterestTransition}
    {b : Bool} : transition.turn? token = some b ↔
      transition = if b then .interested token else .uninterested token := by
  cases transition <;> cases b <;> simp [turn?]

/-- What has been told since everything was last taken back, after one answer more. -/
def InterestAnswer.after (told : List InterestTransition) :
    InterestAnswer → List InterestTransition
  | .updated u => told ++ u.transitions
  | .cleared _ => []

namespace Declarations

/-! ## Counting declarations -/

/-- Nobody has declared anything. -/
def none : Declarations := fun _ _ => 0

/-- Some client holds the token. -/
def Wanted (d : Declarations) (token : String) : Prop := ∃ client, 0 < d client token

/-- The client holds some token. -/
def Present (d : Declarations) (client : ClientName) : Prop := ∃ token, 0 < d client token

/-- Replaces one count. -/
def set (d : Declarations) (client : ClientName) (token : String) (n : Nat) : Declarations :=
  fun client' token' => if client' = client ∧ token' = token then n else d client' token'

/-- Counts one declaration more. -/
def declare (client : ClientName) (d : Declarations) (token : String) : Declarations :=
  d.set client token (d client token + 1)

/-- Counts one declaration less, where there is one. -/
def withdraw (client : ClientName) (d : Declarations) (token : String) : Declarations :=
  d.set client token (d client token - 1)

/-- Counts no declaration of a client any more. -/
def forget (d : Declarations) (client : ClientName) : Declarations :=
  fun client' token => if client' = client then 0 else d client' token

/-- What an operation makes of the declarations. -/
def perform (possible : List String) (d : Declarations) : InterestOperation → Declarations
  | .add client tokens => (tokens.filter (· ∈ possible)).foldl (declare client) d
  | .remove client tokens => tokens.foldl (withdraw client) d
  | .vanish client => d.forget client
  | .clear => none

/-- What a run of operations makes of no declarations. -/
def run (possible : List String) (ops : List InterestOperation) : Declarations :=
  ops.foldl (perform possible) none

/-! ## What an operation is to answer -/

/-- What there is to tell about a token when its count is changed. -/
inductive Turn (d d' : Declarations) (token : String) : List InterestTransition → Prop
  | same (h : d.Wanted token ↔ d'.Wanted token) : Turn d d' token []
  | up (h : ¬ d.Wanted token) (h' : d'.Wanted token) : Turn d d' token [.interested token]
  | down (h : d.Wanted token) (h' : ¬ d'.Wanted token) : Turn d d' token [.uninterested token]

/-- What there is to tell when counts are changed token by token, in the order of the tokens. -/
inductive Turns (change : Declarations → String → Declarations) :
    Declarations → List String → List InterestTransition → Prop
  | nil (d : Declarations) : Turns change d [] []
  | cons {d : Declarations} {token : String} {tokens : List String}
      {first rest : List InterestTransition} (h : Turn d (change d token) token first)
      (hrest : Turns change (change d token) tokens rest) :
      Turns change d (token :: tokens) (first ++ rest)

/-- The transitions name the tokens that turned wanted or unwanted, each of them once. -/
structure Tells (d d' : Declarations) (transitions : List InterestTransition) : Prop where
  interested : ∀ token, .interested token ∈ transitions ↔ ¬ d.Wanted token ∧ d'.Wanted token
  uninterested : ∀ token, .uninterested token ∈ transitions ↔ d.Wanted token ∧ ¬ d'.Wanted token
  once : transitions.Nodup

/-- Watching a client starts when it comes, ends when it goes and is kept as it is otherwise. -/
def Watches (d d' : Declarations) (client : ClientName) : Watch → Prop
  | .start => ¬ d.Present client ∧ d'.Present client
  | .stop => d.Present client ∧ ¬ d'.Present client
  | .keep => d.Present client ↔ d'.Present client

/-- What an operation is to answer, given the declarations there are. -/
def Answers (possible : List String) (d : Declarations) : InterestOperation → InterestAnswer → Prop
  | op@(.add client tokens), .updated u =>
    Turns (declare client) d (tokens.filter (· ∈ possible)) u.transitions ∧
      Tells d (d.perform possible op) u.transitions ∧
      Watches d (d.perform possible op) client u.watch
  | op@(.remove client tokens), .updated u =>
    Turns (withdraw client) d tokens u.transitions ∧
      Tells d (d.perform possible op) u.transitions ∧
      Watches d (d.perform possible op) client u.watch
  | op@(.vanish client), .updated u =>
    u.transitions.Pairwise (fun a b => compare a.token b.token = .lt) ∧
      Tells d (d.perform possible op) u.transitions ∧
      Watches d (d.perform possible op) client u.watch
  | .clear, .cleared clients =>
    clients.Pairwise (fun a b => compare a b = .lt) ∧ ∀ client, client ∈ clients ↔ d.Present client
  | _, _ => False

/-! ## Facts about counts -/

variable {d d' : Declarations} {client : ClientName} {token : String}

theorem set_of_ne {client' : ClientName} {n : Nat} (h : client' ≠ client) :
    d.set client token n client' = d client' := by
  funext token'
  exact if_neg fun heq => h heq.1

theorem set_self (d : Declarations) (client : ClientName) (token token' : String) (n : Nat) :
    d.set client token n client token' = if token' = token then n else d client token' := by
  simp [set]

theorem foldl_withdraw_of_ne {client' : ClientName} (h : client' ≠ client) (tokens : List String)
    (d : Declarations) : tokens.foldl (withdraw client) d client' = d client' := by
  induction tokens generalizing d with
  | nil => rfl
  | cons token tokens ih => exact (ih _).trans (set_of_ne h)

/-- Taking back adds to no count. -/
theorem foldl_withdraw_le (client : ClientName) (tokens : List String) (d : Declarations)
    (token : String) : tokens.foldl (withdraw client) d client token ≤ d client token := by
  induction tokens generalizing d with
  | nil => exact Nat.le_refl _
  | cons first tokens ih =>
    refine Nat.le_trans (ih _) ?_
    rw [withdraw, set_self]
    split
    next heq =>
      subst heq
      exact Nat.sub_le _ _
    next => exact Nat.le_refl _

/-- Declaring takes from no count. -/
theorem le_foldl_declare (client : ClientName) (tokens : List String) (d : Declarations)
    (token : String) : d client token ≤ tokens.foldl (declare client) d client token := by
  induction tokens generalizing d with
  | nil => exact Nat.le_refl _
  | cons first tokens ih =>
    refine Nat.le_trans ?_ (ih _)
    rw [declare, set_self]
    split
    next heq =>
      subst heq
      exact Nat.le_succ _
    next => exact Nat.le_refl _

theorem wanted_iff (d : Declarations) (client : ClientName) (token : String) :
    d.Wanted token ↔ 0 < d client token ∨ ∃ client', client' ≠ client ∧ 0 < d client' token := by
  constructor
  · rintro ⟨client', h⟩
    by_cases heq : client' = client
    · exact .inl (heq ▸ h)
    · exact .inr ⟨client', heq, h⟩
  · rintro (h | ⟨client', -, h⟩)
    · exact ⟨client, h⟩
    · exact ⟨client', h⟩

/-- Whether a token is wanted depends on its own counts only. -/
theorem wanted_set_of_ne {token' : String} {n : Nat} (h : token' ≠ token) :
    (d.set client token n).Wanted token' ↔ d.Wanted token' := by
  have hsame : ∀ client', d.set client token n client' token' = d client' token' :=
    fun client' => if_neg fun heq => h heq.2
  simp only [Wanted, hsame]

theorem wanted_declare (d : Declarations) (client : ClientName) (token token' : String) :
    (d.declare client token).Wanted token' ↔ token' = token ∨ d.Wanted token' := by
  by_cases heq : token' = token
  · subst heq
    refine ⟨fun _ => .inl rfl, fun _ => ⟨client, ?_⟩⟩
    rw [declare, set_self, if_pos rfl]
    exact Nat.succ_pos _
  · rw [declare, wanted_set_of_ne heq]
    exact ⟨.inr, fun h => h.resolve_left heq⟩

theorem wanted_foldl_declare (tokens : List String) (d : Declarations) (token : String) :
    (tokens.foldl (declare client) d).Wanted token ↔ token ∈ tokens ∨ d.Wanted token := by
  induction tokens generalizing d with
  | nil => simp
  | cons first tokens ih =>
    rw [List.foldl_cons, ih, wanted_declare, List.mem_cons]
    exact ⟨fun h => by rcases h with h | h | h <;> simp [h],
      fun h => by rcases h with (h | h) | h <;> simp [h]⟩

/-- Declaring tells of the tokens that were not wanted, of each of them once. -/
theorem Turns.declared {tokens : List String} {transitions : List InterestTransition}
    (h : Turns (declare client) d tokens transitions) :
    (∀ token, .interested token ∈ transitions ↔ token ∈ tokens ∧ ¬ d.Wanted token) ∧
      (∀ token, .uninterested token ∉ transitions) ∧ transitions.Nodup := by
  induction h with
  | nil d => simp
  | @cons d token tokens first rest hturn _ ih =>
    obtain ⟨hinterested, huninterested, honce⟩ := ih
    simp only [wanted_declare, not_or] at hinterested
    have hin : (d.declare client token).Wanted token := (wanted_declare ..).mpr (.inl rfl)
    cases hturn with
    | same hsame =>
      refine ⟨fun token' => ?_, huninterested, honce⟩
      rw [List.nil_append, hinterested, List.mem_cons]
      -- The first token was wanted before, so it is none of those told of.
      exact ⟨fun ⟨hmem, _, hn⟩ => ⟨.inr hmem, hn⟩, fun ⟨hmem, hn⟩ =>
        have hne : token' ≠ token := fun heq => hn (heq ▸ hsame.mpr hin)
        ⟨hmem.resolve_left hne, hne, hn⟩⟩
    | up hnot _ =>
      refine ⟨fun token' => ?_, fun token' hmem => ?_, List.nodup_cons.mpr ⟨fun hmem => ?_, honce⟩⟩
      · rw [List.singleton_append, List.mem_cons, hinterested, List.mem_cons,
          InterestTransition.interested.injEq]
        by_cases heq : token' = token
        · simp [heq, hnot]
        · simp [heq]
      · rcases List.mem_cons.mp hmem with heq | hmem
        · cases heq
        · exact huninterested _ hmem
      · exact ((hinterested _).mp hmem).2.1 rfl
    | down _ hnot => exact absurd hin hnot

theorem Turns.tells_declare {tokens : List String} {transitions : List InterestTransition}
    (h : Turns (declare client) d tokens transitions) :
    Tells d (tokens.foldl (declare client) d) transitions := by
  obtain ⟨hinterested, huninterested, honce⟩ := h.declared
  refine ⟨fun token => ?_, fun token => ?_, honce⟩
  · rw [hinterested, wanted_foldl_declare]
    exact ⟨fun ⟨hmem, hn⟩ => ⟨hn, .inl hmem⟩, fun ⟨hn, h⟩ => ⟨h.resolve_right hn, hn⟩⟩
  · rw [wanted_foldl_declare]
    exact ⟨fun hmem => absurd hmem (huninterested token), fun ⟨hwas, hn⟩ => absurd (.inr hwas) hn⟩

/-- The tokens of which a client's last declaration was taken back. -/
structure Released (d d' : Declarations) (client : ClientName) (gone : List String) : Prop where
  mem : ∀ token, token ∈ gone ↔ 0 < d client token ∧ d' client token = 0
  once : gone.Nodup

/-- The client is the only one to hold the token. -/
def Lone (d : Declarations) (client : ClientName) (token : String) : Prop :=
  ∀ client', client' ≠ client → d client' token = 0

/-- Of the tokens that a client has released, those it held alone are no longer wanted. -/
theorem Released.tells {gone : List String} (h : Released d d' client gone) (lone : String → Bool)
    (hlone : ∀ token, 0 < d client token → (lone token = true ↔ d.Lone client token))
    (hothers : ∀ client', client' ≠ client → d' client' = d client')
    (hle : ∀ token, d' client token ≤ d client token) :
    Tells d d' ((gone.filter lone).map .uninterested) := by
  have hback : ∀ token, d'.Wanted token → d.Wanted token := by
    intro token hw
    rcases (wanted_iff d' client token).mp hw with hw | ⟨client', hne, hw⟩
    · exact ⟨client, Nat.lt_of_lt_of_le hw (hle token)⟩
    · exact ⟨client', hothers client' hne ▸ hw⟩
  constructor
  · intro token
    exact ⟨fun hmem => by simp at hmem, fun ⟨hn, hw⟩ => absurd (hback token hw) hn⟩
  · intro token
    rw [List.mem_map]
    constructor
    · rintro ⟨token', hmem, heq⟩
      cases heq
      obtain ⟨hgone, hlonely⟩ := List.mem_filter.mp hmem
      obtain ⟨hheld, hzero⟩ := (h.mem token).mp hgone
      refine ⟨⟨client, hheld⟩, fun hw => ?_⟩
      rcases (wanted_iff d' client token).mp hw with hw | ⟨client', hne, hw⟩
      · exact absurd hw (by omega)
      · rw [hothers client' hne, (hlone token hheld).mp hlonely client' hne] at hw
        exact absurd hw (Nat.lt_irrefl 0)
    · rintro ⟨hw, hn⟩
      have hzero : d' client token = 0 := Nat.eq_zero_of_not_pos fun hpos => hn ⟨client, hpos⟩
      have hlonely : d.Lone client token := fun client' hne =>
        Nat.eq_zero_of_not_pos fun hpos => hn ⟨client', by rw [hothers client' hne]; exact hpos⟩
      have hheld : 0 < d client token := ((wanted_iff d client token).mp hw).resolve_right
        fun ⟨client', hne, hpos⟩ => Nat.ne_of_gt hpos (hlonely client' hne)
      exact ⟨token, List.mem_filter.mpr
        ⟨(h.mem token).mpr ⟨hheld, hzero⟩, (hlone token hheld).mpr hlonely⟩, rfl⟩
  · exact List.Pairwise.map _ (fun a b hne heq => hne (by cases heq; rfl)) (h.once.filter _)

end Declarations

end Telepathy
