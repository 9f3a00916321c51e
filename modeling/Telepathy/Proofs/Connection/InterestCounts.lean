import Telepathy.Proofs.Connection.Declarations
import Telepathy.Proofs.Sorted.Entries

set_option autoImplicit false

/-!
# What the interest table counts

The table of interests keeps two counts that have to agree: the declarations of each client, and
for each token the clients that hold it. `Keeps` ties both to the declarations that were made and
not taken back: rows hold the counts of their clients, and a token has as many holders as there are
rows with it. Every operation preserves this and answers what it is to answer.
-/

namespace Telepathy

namespace InterestTable

open Declarations

variable {t : InterestTable} {d : Declarations} {client : ClientName} {token : String}

/-! ## The two counts of the table -/

/-- A count as it stands in the table, which has no entries of zero. -/
def entry (n : Nat) : Option Nat := if n = 0 then .none else some n

/-- The number of clients whose row has the token. -/
def holding (declared : SortedMap ClientName (SortedMap String Nat)) (token : String) : Nat :=
  declared.values.countP fun row => row.contains token

/-- The table holds these declarations: its rows are the counts of each client, there are rows of
those clients only that hold something, and of each token it has the number of rows with it. -/
structure Keeps (t : InterestTable) (d : Declarations) : Prop where
  rows : ∀ client token, (t.row client).get? token = entry (d client token)
  present : ∀ client, t.declared.get? client ≠ some .empty
  holders : ∀ token, t.holders.get? token = entry (holding t.declared token)

@[simp] theorem getD_entry (n : Nat) : (entry n).getD 0 = n := by
  unfold entry
  split
  next h => exact h.symm
  next => rfl

theorem isSome_entry (n : Nat) : (entry n).isSome = true ↔ 0 < n := by
  unfold entry
  split
  next h => simp [h]
  next h => simpa using Nat.pos_of_ne_zero h

theorem entry_eq_none {n : Nat} : entry n = .none ↔ n = 0 := by
  unfold entry
  split
  next h => simp [h]
  next h => simp [h]

theorem keeps_new (possible : List String) : (new possible).Keeps Declarations.none where
  rows _ _ := rfl
  present _ := Option.some_ne_none _ ∘ Eq.symm
  holders _ := rfl

theorem Keeps.contains_row (h : t.Keeps d) :
    (t.row client).contains token = true ↔ 0 < d client token := by
  rw [SortedMap.contains, h.rows, isSome_entry]

/-- A client has a row while it holds something. -/
theorem Keeps.contains_declared (h : t.Keeps d) :
    t.declared.contains client = true ↔ d.Present client := by
  constructor
  · intro hrow
    obtain ⟨row, hrow⟩ := Option.isSome_iff_exists.mp hrow
    refine Classical.byContradiction fun hn => h.present client (hrow.trans (congrArg some ?_))
    refine SortedMap.eq_empty_iff.mpr fun token => ?_
    have hget := h.rows client token
    rw [InterestTable.row, hrow, Option.getD_some] at hget
    rw [hget, entry_eq_none]
    exact Nat.eq_zero_of_not_pos fun hpos => hn ⟨token, hpos⟩
  · rintro ⟨token, hpos⟩
    rw [← h.contains_row, InterestTable.row] at hpos
    cases hrow : t.declared.get? client with
    | none =>
      rw [hrow] at hpos
      cases hpos
    | some row => rw [SortedMap.contains, hrow]; rfl

/-- The rows with a token are those of the clients that hold it. -/
theorem Keeps.holding_eq (h : t.Keeps d) (token : String) :
    ∃ clients : List ClientName, clients.Nodup ∧ (∀ client, client ∈ clients ↔ 0 < d client token) ∧
      clients.length = holding t.declared token := by
  refine ⟨(t.declared.filter fun _ row => row.contains token).keys, ?_, fun client => ?_, ?_⟩
  · exact SortedMap.nodup_keys _
  · rw [SortedMap.mem_keys, SortedMap.contains, SortedMap.get?_filter, ← h.contains_row, row]
    cases t.declared.get? client with
    | none => simp [SortedMap.contains]
    | some row => cases hc : row.contains token <;> simp [Option.filter, hc]
  · rw [SortedMap.keys, List.length_map, SortedMap.filter, holding, SortedMap.values,
      List.countP_map, List.countP_eq_length_filter]
    rfl

/-- A token is wanted while there are rows with it. -/
theorem Keeps.holding_pos (h : t.Keeps d) : 0 < holding t.declared token ↔ d.Wanted token := by
  obtain ⟨clients, -, hmem, hlength⟩ := h.holding_eq token
  rw [← hlength, List.length_pos_iff_exists_mem]
  simp only [hmem, Wanted]

/-- A token has one row exactly when its holder is the only one. -/
theorem Keeps.holding_eq_one (h : t.Keeps d) (hheld : 0 < d client token) :
    holding t.declared token = 1 ↔ d.Lone client token := by
  obtain ⟨clients, hnodup, hmem, hlength⟩ := h.holding_eq token
  rw [← hlength, List.length_eq_one_iff]
  have hclient := (hmem client).mpr hheld
  constructor
  · rintro ⟨only, rfl⟩ client' hne
    refine Nat.eq_zero_of_not_pos fun hpos => hne ?_
    rw [List.mem_singleton.mp ((hmem client').mpr hpos), List.mem_singleton.mp hclient]
  · intro hlone
    refine ⟨client, (List.perm_ext_iff_of_nodup hnodup (by simp)).mpr (fun client' => ?_)
      |>.eq_singleton⟩
    rw [List.mem_singleton, hmem]
    refine ⟨fun hpos => Classical.byContradiction fun hne => ?_, fun heq => heq ▸ hheld⟩
    exact Nat.ne_of_gt hpos (hlone client' hne)

/-! ## Replacing a row -/

/-- Gives a client another row; rows without entries are not kept. -/
def replaceRow (declared : SortedMap ClientName (SortedMap String Nat)) (client : ClientName)
    (row : SortedMap String Nat) : SortedMap ClientName (SortedMap String Nat) :=
  if row.isEmpty then declared.erase client else declared.insert client row

theorem isEmpty_iff {row : SortedMap String Nat} : row.isEmpty = true ↔ row = .empty := by
  obtain ⟨entries, hentries⟩ := row
  cases entries with
  | nil => exact ⟨fun _ => rfl, fun _ => rfl⟩
  | cons e rest =>
    constructor
    · intro h
      cases h
    · intro h
      cases h

theorem get?_replaceRow (declared : SortedMap ClientName (SortedMap String Nat))
    (client client' : ClientName) (row : SortedMap String Nat) :
    (replaceRow declared client row).get? client' =
      if client' = client then (if row.isEmpty then .none else some row)
      else declared.get? client' := by
  unfold replaceRow
  split
  · rw [SortedMap.get?_erase]
  · rw [SortedMap.get?_insert]

/-- Replacing a row exchanges its share in the number of rows with a token. -/
theorem holding_replaceRow (t : InterestTable) (client : ClientName) (row : SortedMap String Nat)
    (token : String) :
    holding (replaceRow t.declared client row) token + ((t.row client).contains token).toNat =
      holding t.declared token + (row.contains token).toNat := by
  have hold : List.countP (fun row => row.contains token) (t.declared.get? client).toList =
      ((t.row client).contains token).toNat := by
    unfold InterestTable.row
    cases t.declared.get? client with
    | none => rfl
    | some old => cases hc : old.contains token <;> simp [hc]
  rw [← hold]
  unfold replaceRow holding
  split
  next hempty =>
    rw [isEmpty_iff.mp hempty, ← List.countP_append]
    exact (t.declared.values_erase_perm client).countP_eq _
  next =>
    rw [← List.countP_append, (t.declared.values_insert_perm client row).countP_eq,
      List.countP_cons]
    cases row.contains token <;> rfl

/-- A table in which one client's row is replaced and the holders are counted anew. -/
theorem Keeps.replace {t' : InterestTable} {d' : Declarations} {row : SortedMap String Nat}
    (h : t.Keeps d) (hrow : ∀ token, row.get? token = entry (d' client token))
    (hothers : ∀ client', client' ≠ client → d' client' = d client')
    (hdeclared : t'.declared = replaceRow t.declared client row)
    (hholders : ∀ token, t'.holders.get? token = entry (holding t.declared token +
      (decide (0 < d' client token)).toNat - (decide (0 < d client token)).toNat)) :
    t'.Keeps d' := by
  constructor
  · intro client' token
    rw [InterestTable.row, hdeclared, get?_replaceRow]
    by_cases heq : client' = client
    · rw [if_pos heq, heq, ← hrow]
      split
      next hempty =>
        rw [isEmpty_iff.mp hempty]
        rfl
      next => rfl
    · rw [if_neg heq, hothers client' heq]
      exact h.rows client' token
  · intro client'
    rw [hdeclared, get?_replaceRow]
    split
    · split
      next => exact fun hn => by cases hn
      next hempty => exact fun hn => hempty (isEmpty_iff.mpr (Option.some.inj hn))
    · exact h.present client'
  · intro token
    have hcount := holding_replaceRow t client row token
    have hold : (t.row client).contains token = decide (0 < d client token) := by
      rw [Bool.eq_iff_iff, h.contains_row, decide_eq_true_eq]
    have hnew : row.contains token = decide (0 < d' client token) := by
      rw [Bool.eq_iff_iff, SortedMap.contains, hrow, isSome_entry, decide_eq_true_eq]
    rw [hold, hnew] at hcount
    rw [hholders, hdeclared, ← hcount, Nat.add_sub_cancel]

/-! ## Declaring -/

/-- The rows in which a client has one declaration more of a token. -/
def declaring (t : InterestTable) (client : ClientName) (token : String) :
    SortedMap ClientName (SortedMap String Nat) :=
  t.declared.insert client
    ((t.row client).insert token (((t.row client).get? token).getD 0 + 1))

theorem declare_again {told : List InterestTransition}
    (h : 0 < ((t.row client).get? token).getD 0) :
    declare client (t, told) token = ({ t with declared := t.declaring client token }, told) := by
  unfold declare
  dsimp only
  rw [if_pos (Nat.succ_lt_succ h)]
  rfl

theorem declare_first {told : List InterestTransition}
    (h : ((t.row client).get? token).getD 0 = 0) :
    declare client (t, told) token =
      (⟨t.possible, t.holders.insert token (t.clientsInterested token + 1),
        t.declaring client token⟩,
        if t.clientsInterested token + 1 = 1 then told ++ [.interested token] else told) := by
  unfold declare
  dsimp only
  rw [if_neg (by omega)]
  rfl

theorem Keeps.count_eq (h : t.Keeps d) (client : ClientName) (token : String) :
    ((t.row client).get? token).getD 0 = d client token := by
  rw [h.rows, getD_entry]

theorem Keeps.clientsInterested_eq (h : t.Keeps d) (token : String) :
    t.clientsInterested token = holding t.declared token := by
  rw [clientsInterested, h.holders, getD_entry]

/-- With one declaration more of a client, the table is in order if the holders are. -/
theorem Keeps.declaring (h : t.Keeps d) {t' : InterestTable} (client : ClientName) (token : String)
    (hdeclared : t'.declared = t.declaring client token)
    (hholders : ∀ token', t'.holders.get? token' =
      if token' = token ∧ d client token = 0 then some (holding t.declared token + 1)
      else t.holders.get? token') : t'.Keeps (d.declare client token) := by
  have hget : ∀ token', d.declare client token client token' =
      if token' = token then d client token + 1 else d client token' :=
    fun token' => set_self d client token token' _
  have hrow : ∀ token', ((t.row client).insert token (d client token + 1)).get? token' =
      entry (d.declare client token client token') := by
    intro token'
    rw [SortedMap.get?_insert, hget]
    split
    · rfl
    · exact h.rows client token'
  have hempty : ¬ ((t.row client).insert token (d client token + 1)).isEmpty = true := by
    intro hempty
    have hnone := SortedMap.eq_empty_iff.mp (isEmpty_iff.mp hempty) token
    rw [SortedMap.get?_insert_self] at hnone
    cases hnone
  refine h.replace hrow (fun client' hne => set_of_ne hne) ?_ fun token' => ?_
  · rw [hdeclared, InterestTable.declaring, h.count_eq]
    exact (if_neg hempty).symm
  · rw [hholders, hget]
    by_cases heq : token' = token
    · subst heq
      by_cases hheld : d client token' = 0
      · rw [if_pos ⟨rfl, hheld⟩, if_pos rfl, hheld]
        rfl
      · rw [if_neg fun hn => hheld hn.2, if_pos rfl, h.holders]
        simp [Nat.pos_of_ne_zero hheld]
    · rw [if_neg fun hn => heq hn.1, if_neg heq, Nat.add_sub_cancel]
      exact h.holders token'

/-- One declaration more is counted, and the token told of if it was not wanted. -/
theorem Keeps.declare (h : t.Keeps d) (client : ClientName) (token : String)
    (told : List InterestTransition) :
    ∃ t' first, InterestTable.declare client (t, told) token = (t', told ++ first) ∧
      t'.possible = t.possible ∧
      t'.Keeps (d.declare client token) ∧ Turn d (d.declare client token) token first := by
  have hwanted : (d.declare client token).Wanted token :=
    (wanted_declare d client token token).mpr (.inl rfl)
  have hcount := h.count_eq client token
  by_cases hheld : 0 < d client token
  · refine ⟨{ t with declared := t.declaring client token }, [], ?_, rfl,
      h.declaring client token rfl fun token' => ?_,
      .same ⟨fun _ => hwanted, fun _ => ⟨client, hheld⟩⟩⟩
    · rw [declare_again (hcount ▸ hheld), List.append_nil]
    · rw [if_neg fun hn => Nat.ne_of_gt hheld hn.2]
  · have hzero : d client token = 0 := Nat.eq_zero_of_not_pos hheld
    have hkeeps : Keeps ⟨t.possible, t.holders.insert token (t.clientsInterested token + 1),
        t.declaring client token⟩ (d.declare client token) := by
      refine h.declaring client token rfl fun token' => ?_
      rw [SortedMap.get?_insert, h.clientsInterested_eq]
      simp only [hzero, and_true]
    rw [declare_first (hcount.trans hzero)]
    refine ⟨_, if t.clientsInterested token + 1 = 1 then [.interested token] else [], ?_,
      ?possible, hkeeps, ?_⟩
    case possible => rfl
    · split <;> simp
    · rw [h.clientsInterested_eq]
      split
      next hnobody =>
        exact .up (fun hw => Nat.ne_of_gt (h.holding_pos.mpr hw) (by omega)) hwanted
      next hsome =>
        exact .same ⟨fun _ => hwanted, fun _ => h.holding_pos.mp (by omega)⟩

theorem Keeps.declareAll (client : ClientName) (tokens : List String) :
    ∀ {t : InterestTable} {d : Declarations} (_ : t.Keeps d) (told : List InterestTransition),
    ∃ t' transitions, tokens.foldl (InterestTable.declare client) (t, told) =
        (t', told ++ transitions) ∧ t'.possible = t.possible ∧
      t'.Keeps (tokens.foldl (Declarations.declare client) d) ∧
      Turns (Declarations.declare client) d tokens transitions := by
  induction tokens with
  | nil => exact fun {t} _ h told => ⟨t, [], by rw [List.append_nil]; rfl, rfl, h, .nil _⟩
  | cons token tokens ih =>
    intro t d h told
    obtain ⟨t₁, first, heq₁, hpossible₁, h₁, hturn⟩ := h.declare client token told
    obtain ⟨t', rest, heq, hpossible, h', hturns⟩ := ih h₁ (told ++ first)
    refine ⟨t', first ++ rest, ?_, hpossible.trans hpossible₁, h', .cons hturn hturns⟩
    rw [List.foldl_cons, heq₁, heq, List.append_assoc]

/-! ## Withdrawing -/

/-- One holder less is counted of a token, which is told of if that was the only one. -/
theorem releaseToken_spec {n : String → Nat} (h : ∀ token, t.holders.get? token = entry (n token))
    (token : String) (told : List InterestTransition) :
    ∃ holders, releaseToken (t, told) token =
        ({ t with holders },
          told ++ ([token].filter (fun token => n token = 1)).map .uninterested) ∧
      ∀ token', holders.get? token' = entry (if token' = token then n token - 1 else n token') := by
  have hget := h token
  unfold releaseToken
  dsimp only
  split
  next hnone =>
    have hzero : n token = 0 := entry_eq_none.mp (hget.symm.trans hnone)
    refine ⟨t.holders, by simp [hzero], fun token' => ?_⟩
    by_cases heq : token' = token
    · rw [if_pos heq, heq, hget, hzero]
    · rw [if_neg heq, h]
  next clients hsome =>
    have hcount : 0 < n token ∧ clients = n token := by
      have := getD_entry (n token)
      rw [← hget, hsome] at this
      exact ⟨(isSome_entry _).mp (by rw [← hget, hsome]; rfl), this⟩
    obtain ⟨hpos, rfl⟩ := hcount
    by_cases hlast : n token - 1 = 0
    · rw [if_pos hlast]
      have hone : n token = 1 := by omega
      refine ⟨t.holders.erase token, by simp [hone], fun token' => ?_⟩
      rw [SortedMap.get?_erase, hlast]
      by_cases heq : token' = token
      · rw [if_pos heq, if_pos heq]
        rfl
      · rw [if_neg heq, if_neg heq, h]
    · rw [if_neg hlast]
      have hmany : n token ≠ 1 := by omega
      refine ⟨t.holders.insert token (n token - 1), by simp [hmany], fun token' => ?_⟩
      rw [SortedMap.get?_insert]
      by_cases heq : token' = token
      · rw [if_pos heq, if_pos heq, entry, if_neg hlast]
      · rw [if_neg heq, if_neg heq, h]

/-- Each of several tokens has one holder less; those of which it was the only one are told of. -/
theorem releaseTokens_spec (tokens : List String) (hnodup : tokens.Nodup) :
    ∀ {t : InterestTable} {n : String → Nat} (_ : ∀ token, t.holders.get? token = entry (n token))
      (told : List InterestTransition),
    ∃ holders, tokens.foldl releaseToken (t, told) =
        ({ t with holders },
          told ++ (tokens.filter (fun token => n token = 1)).map .uninterested) ∧
      ∀ token, holders.get? token = entry (if token ∈ tokens then n token - 1 else n token) := by
  induction tokens with
  | nil => exact fun {t n} h told => ⟨t.holders, by simp, h⟩
  | cons token tokens ih =>
    intro t n h told
    obtain ⟨hnot, hnodup⟩ := List.nodup_cons.mp hnodup
    obtain ⟨holders₁, heq₁, h₁⟩ := releaseToken_spec h token told
    obtain ⟨holders, heq, h'⟩ := ih hnodup (t := { t with holders := holders₁ }) h₁
      (told ++ ([token].filter (fun token => n token = 1)).map .uninterested)
    -- The tokens that follow are others, of which there are as many holders as before.
    have hsame : (tokens.filter fun token' =>
          (if token' = token then n token - 1 else n token') = 1) =
        tokens.filter (fun token => n token = 1) :=
      List.filter_congr fun token' hmem => by
        have hne : token' ≠ token := fun heq => hnot (heq ▸ hmem)
        rw [if_neg hne]
    refine ⟨holders, ?_, fun token' => ?_⟩
    · rw [List.foldl_cons, heq₁, heq, hsame, List.append_assoc, ← List.map_append,
        ← List.filter_append]
      rfl
    · rw [h']
      by_cases heq : token' = token
      · rw [if_neg (heq ▸ hnot), if_pos heq, if_pos (heq ▸ List.mem_cons_self), heq]
      · simp only [List.mem_cons, heq, false_or, if_false]

/-- A client that lets go of tokens, down to the given row, ceases to be among their holders. -/
theorem Keeps.release (h : t.Keeps d) {d' : Declarations} {row : SortedMap String Nat}
    {gone : List String} (hrow : ∀ token, row.get? token = entry (d' client token))
    (hothers : ∀ client', client' ≠ client → d' client' = d client')
    (hle : ∀ token, d' client token ≤ d client token) (hgone : Released d d' client gone) :
    ∃ t', releaseTokens { t with declared := replaceRow t.declared client row } gone =
        (t', (gone.filter fun token => holding t.declared token = 1).map .uninterested) ∧
      t'.possible = t.possible ∧ t'.Keeps d' := by
  obtain ⟨holders, heq, hholders⟩ := releaseTokens_spec gone hgone.once
    (t := { t with declared := replaceRow t.declared client row }) h.holders []
  refine ⟨⟨t.possible, holders, replaceRow t.declared client row⟩, heq, rfl,
    h.replace hrow hothers rfl fun token => ?_⟩
  rw [hholders]
  have hless := hle token
  by_cases hmem : token ∈ gone
  · obtain ⟨hheld, hzero⟩ := (hgone.mem token).mp hmem
    simp [if_pos hmem, hheld, hzero]
  · have hsame : decide (0 < d' client token) = decide (0 < d client token) := by
      have hn := mt (hgone.mem token).mpr hmem
      rw [Bool.eq_iff_iff, decide_eq_true_eq, decide_eq_true_eq]
      omega
    rw [if_neg hmem, hsame, Nat.add_sub_cancel]

/-- One declaration less is counted, and a token of which it was the last is let go. -/
theorem withdraw_spec {row : SortedMap String Nat}
    (h : ∀ token, row.get? token = entry (d client token)) (token : String) (gone : List String) :
    ∃ row', InterestTable.withdraw (row, gone) token =
        (row', gone ++ if d client token = 1 then [token] else []) ∧
      ∀ token', row'.get? token' = entry (d.withdraw client token client token') := by
  have hget : ∀ token', d.withdraw client token client token' =
      if token' = token then d client token - 1 else d client token' :=
    fun token' => set_self d client token token' _
  simp only [hget]
  unfold InterestTable.withdraw
  dsimp only
  split
  next hnone =>
    have hzero : d client token = 0 := entry_eq_none.mp ((h token).symm.trans hnone)
    refine ⟨row, by simp [hzero], fun token' => ?_⟩
    by_cases heq : token' = token
    · rw [if_pos heq, heq, h, hzero]
    · rw [if_neg heq, h]
  next count hsome =>
    have hcount : 0 < d client token ∧ count = d client token := by
      have := getD_entry (d client token)
      rw [← h, hsome] at this
      exact ⟨(isSome_entry _).mp (by rw [← h, hsome]; rfl), this⟩
    obtain ⟨hpos, rfl⟩ := hcount
    by_cases hlast : d client token - 1 = 0
    · rw [if_pos hlast, if_pos (by omega)]
      refine ⟨row.erase token, rfl, fun token' => ?_⟩
      rw [SortedMap.get?_erase, hlast]
      by_cases heq : token' = token
      · rw [if_pos heq, if_pos heq]
        rfl
      · rw [if_neg heq, if_neg heq, h]
    · rw [if_neg hlast, if_neg (by omega), List.append_nil]
      refine ⟨row.insert token (d client token - 1), rfl, fun token' => ?_⟩
      rw [SortedMap.get?_insert]
      by_cases heq : token' = token
      · rw [if_pos heq, if_pos heq, entry, if_neg hlast]
      · rw [if_neg heq, if_neg heq, h]

/-- A token is no longer wanted once its only holder lets go of it. -/
theorem turn_withdraw {lone : String → Bool}
    (hlone : 0 < d client token → (lone token = true ↔ d.Lone client token)) :
    Turn d (d.withdraw client token) token
      (((if d client token = 1 then [token] else []).filter lone).map .uninterested) := by
  have hown : d.withdraw client token client token = d client token - 1 := by
    rw [Declarations.withdraw, set_self, if_pos rfl]
  have hother : ∀ client', client' ≠ client →
      d.withdraw client token client' token = d client' token :=
    fun client' hne => congrFun (set_of_ne hne) token
  have hwanted : (d.withdraw client token).Wanted token ↔
      1 < d client token ∨ ∃ client', client' ≠ client ∧ 0 < d client' token := by
    rw [wanted_iff _ client, hown]
    refine or_congr ⟨fun _ => by omega, fun _ => by omega⟩ (exists_congr fun client' => ?_)
    exact and_congr_right fun hne => by rw [hother client' hne]
  by_cases hone : d client token = 1
  · rw [if_pos hone]
    have hheld : 0 < d client token := by omega
    cases hl : lone token with
    | false =>
      rw [List.filter_cons_of_neg (by simp [hl])]
      have hn : ¬ d.Lone client token := fun hl' => by
        rw [(hlone hheld).mpr hl'] at hl
        cases hl
      refine .same ⟨fun _ => hwanted.mpr (.inr ?_), fun _ => ⟨client, hheld⟩⟩
      refine Classical.byContradiction fun hnone => hn fun client' hne => ?_
      exact Nat.eq_zero_of_not_pos fun hpos => hnone ⟨client', hne, hpos⟩
    | true =>
      rw [List.filter_cons_of_pos hl]
      have halone := (hlone hheld).mp hl
      refine .down ⟨client, hheld⟩ fun hw => ?_
      rcases hwanted.mp hw with hmany | ⟨client', hne, hpos⟩
      · omega
      · exact Nat.ne_of_gt hpos (halone client' hne)
  · rw [if_neg hone]
    refine .same ?_
    rw [hwanted, wanted_iff d client]
    exact or_congr ⟨fun _ => by omega, fun _ => by omega⟩ .rfl

/-- Declarations are taken back token by token, and what is let go of is what is left with none. -/
theorem withdrawAll_spec (client : ClientName) (lone : String → Bool) (tokens : List String) :
    ∀ {row : SortedMap String Nat} {d : Declarations}
      (_ : ∀ token, row.get? token = entry (d client token))
      (_ : ∀ token, 0 < d client token → (lone token = true ↔ d.Lone client token))
      (before : List String),
    ∃ row' gone, tokens.foldl InterestTable.withdraw (row, before) = (row', before ++ gone) ∧
      (∀ token, row'.get? token =
        entry (tokens.foldl (Declarations.withdraw client) d client token)) ∧
      Released d (tokens.foldl (Declarations.withdraw client) d) client gone ∧
      Turns (Declarations.withdraw client) d tokens ((gone.filter lone).map .uninterested) := by
  induction tokens with
  | nil =>
    intro row d h _ before
    refine ⟨row, [], by simp, h, ⟨fun token => ?_, .nil⟩, .nil d⟩
    exact ⟨fun hmem => (List.not_mem_nil hmem).elim, fun ⟨hpos, hzero⟩ =>
      absurd hzero (Nat.ne_of_gt hpos)⟩
  | cons token tokens ih =>
    intro row d h hlone before
    obtain ⟨row₁, heq₁, h₁⟩ := withdraw_spec h token before
    have hget : ∀ token', d.withdraw client token client token' =
        if token' = token then d client token - 1 else d client token' :=
      fun token' => set_self d client token token' _
    have hlone₁ : ∀ token', 0 < d.withdraw client token client token' →
        (lone token' = true ↔ (d.withdraw client token).Lone client token') := by
      intro token' hpos
      have hheld : 0 < d client token' := by
        rw [hget] at hpos
        split at hpos
        next heq => rw [heq]; omega
        next => exact hpos
      rw [hlone token' hheld]
      exact forall_congr' fun client' => imp_congr_right fun hne => by
        rw [show d.withdraw client token client' token' = d client' token' from
          congrFun (set_of_ne hne) token']
    obtain ⟨row', gone, heq, h', hgone, hturns⟩ := ih h₁ hlone₁ (before ++ _)
    refine ⟨row', (if d client token = 1 then [token] else []) ++ gone, ?_, h', ?_, ?_⟩
    · rw [List.foldl_cons, heq₁, heq, List.append_assoc]
    · have hle := foldl_withdraw_le client tokens (d.withdraw client token) token
      rw [hget, if_pos rfl] at hle
      constructor
      · intro token'
        rw [List.mem_append, hgone.mem, hget, List.foldl_cons]
        by_cases hsame : token' = token
        · subst hsame
          rw [if_pos rfl]
          by_cases hone : d client token' = 1
          · simp only [if_pos hone, List.mem_singleton, true_or, true_iff]
            omega
          · simp only [if_neg hone, List.not_mem_nil, false_or]
            omega
        · rw [if_neg hsame]
          by_cases hone : d client token = 1
          · simp [if_pos hone, hsame]
          · simp [if_neg hone]
      · refine List.nodup_append.mpr ⟨by split <;> simp, hgone.once, fun a ha b hb hab => ?_⟩
        have hpos := ((hgone.mem b).mp hb).1
        rw [hget] at hpos
        split at ha
        next hone =>
          rw [if_pos (hab ▸ List.mem_singleton.mp ha)] at hpos
          omega
        next => exact List.not_mem_nil ha
    · rw [List.filter_append, List.map_append]
      exact .cons (turn_withdraw (hlone token)) hturns

/-! ## Whole operations -/

/-- Carries an operation out. -/
def perform (t : InterestTable) : InterestOperation → InterestTable × InterestAnswer
  | .add client tokens => ((t.add client tokens).1, .updated (t.add client tokens).2)
  | .remove client tokens => ((t.remove client tokens).1, .updated (t.remove client tokens).2)
  | .vanish client => ((t.vanish client).1, .updated (t.vanish client).2)
  | .clear => (t.clear.1, .cleared t.clear.2)

theorem Keeps.add (h : t.Keeps d) {possible : List String}
    (hpossible : t.possible = .ofList possible) (client : ClientName) (tokens : List String) :
    (t.add client tokens).1.possible = t.possible ∧
      (t.add client tokens).1.Keeps (d.perform possible (.add client tokens)) ∧
      d.Answers possible (.add client tokens) (.updated (t.add client tokens).2) := by
  have hfilter : tokens.filter (· ∈ t.possible) = tokens.filter (· ∈ possible) :=
    List.filter_congr fun token _ => by simp only [hpossible, SortedSet.mem_ofList]
  obtain ⟨t', transitions, heq, hsame, hkeeps, hturns⟩ :=
    h.declareAll client (tokens.filter (· ∈ possible)) []
  rw [List.nil_append] at heq
  have hadd : t.add client tokens = (t', ⟨transitions,
      if (!t.declared.contains client && t'.declared.contains client) = true then .start
      else .keep⟩) := by
    unfold InterestTable.add
    rw [hfilter, heq]
  rw [hadd]
  refine ⟨hsame, hkeeps, hturns, hturns.tells_declare, ?_⟩
  have hstays : d.Present client →
      (d.perform possible (.add client tokens)).Present client := by
    rintro ⟨token, hpos⟩
    exact ⟨token, Nat.lt_of_lt_of_le hpos (le_foldl_declare client _ d token)⟩
  have hfresh : (!t.declared.contains client && t'.declared.contains client) = true ↔
      ¬ d.Present client ∧ (d.perform possible (.add client tokens)).Present client := by
    rw [Bool.and_eq_true, Bool.not_eq_true', ← Bool.not_eq_true, h.contains_declared,
      hkeeps.contains_declared]
    rfl
  dsimp only
  split
  next hcond => exact hfresh.mp hcond
  next hcond =>
    exact ⟨hstays, fun his => Classical.byContradiction fun hnot => hcond (hfresh.mpr ⟨hnot, his⟩)⟩

/-- Taking back from a client without a row takes nothing back. -/
theorem Keeps.absent (h : t.Keeps d) (hrow : t.declared.get? client = .none) (token : String) :
    d client token = 0 := by
  have hget := h.rows client token
  rw [InterestTable.row, hrow] at hget
  exact entry_eq_none.mp hget.symm

theorem remove_eq {tokens gone : List String} {row row' : SortedMap String Nat} {t' : InterestTable}
    {transitions : List InterestTransition} (hrow : t.declared.get? client = some row)
    (hwithdraw : tokens.foldl InterestTable.withdraw (row, []) = (row', gone))
    (hrelease : releaseTokens { t with declared := replaceRow t.declared client row' } gone =
      (t', transitions)) :
    t.remove client tokens = (t', ⟨transitions, if row'.isEmpty then .stop else .keep⟩) := by
  unfold InterestTable.remove
  rw [hrow]
  dsimp only
  rw [hwithdraw]
  dsimp only
  rw [replaceRow] at hrelease
  split
  next hempty =>
    rw [if_pos hempty] at hrelease
    dsimp only
    rw [hrelease]
  next hempty =>
    rw [if_neg hempty] at hrelease
    dsimp only
    rw [hrelease]

theorem Keeps.remove (h : t.Keeps d) (possible : List String) (client : ClientName)
    (tokens : List String) :
    (t.remove client tokens).1.possible = t.possible ∧
      (t.remove client tokens).1.Keeps (d.perform possible (.remove client tokens)) ∧
      d.Answers possible (.remove client tokens) (.updated (t.remove client tokens).2) := by
  have hle := foldl_withdraw_le client tokens d
  have hothers : ∀ client', client' ≠ client →
      tokens.foldl (Declarations.withdraw client) d client' = d client' :=
    fun client' hne => foldl_withdraw_of_ne hne tokens d
  have hlone : ∀ token, 0 < d client token →
      (decide (holding t.declared token = 1) = true ↔ d.Lone client token) :=
    fun token hheld => by rw [decide_eq_true_eq]; exact h.holding_eq_one hheld
  obtain ⟨row', gone, hwithdraw, hrow', hgone, hturns⟩ := withdrawAll_spec client
    (fun token => holding t.declared token = 1) tokens (h.rows client) hlone []
  have htells := hgone.tells _ hlone hothers hle
  cases hrow : t.declared.get? client with
  | none =>
    have hremove : t.remove client tokens = (t, ⟨[], .keep⟩) := by
      unfold InterestTable.remove
      rw [hrow]
    have hzero := h.absent hrow
    have hsame : tokens.foldl (Declarations.withdraw client) d = d := by
      funext client' token
      by_cases heq : client' = client
      · have := hle token
        rw [hzero] at this
        rw [heq, hzero, Nat.eq_zero_of_le_zero this]
      · rw [hothers client' heq]
    have hnil : gone = [] := List.eq_nil_iff_forall_not_mem.mpr fun token hmem =>
      Nat.ne_of_gt ((hgone.mem token).mp hmem).1 (hzero token)
    rw [hnil, hsame] at htells
    rw [hnil] at hturns
    rw [hremove]
    unfold Answers Declarations.perform
    dsimp only
    rw [hsame]
    exact ⟨rfl, h, hturns, htells, .rfl⟩
  | some row =>
    rw [show t.row client = row by rw [InterestTable.row, hrow]; rfl, List.nil_append] at hwithdraw
    obtain ⟨t', hrelease, hsame, hkeeps⟩ := h.release hrow' hothers hle hgone
    rw [remove_eq hrow hwithdraw hrelease]
    refine ⟨hsame, hkeeps, hturns, htells, ?_⟩
    have his : d.Present client := h.contains_declared.mp (by rw [SortedMap.contains, hrow]; rfl)
    have hrowless : row'.isEmpty = true ↔
        ¬ (d.perform possible (.remove client tokens)).Present client := by
      rw [isEmpty_iff, SortedMap.eq_empty_iff]
      simp only [hrow', entry_eq_none]
      constructor
      · rintro hzero ⟨token, hpos⟩
        exact Nat.ne_of_gt hpos (hzero token)
      · exact fun hn token => Nat.eq_zero_of_not_pos fun hpos => hn ⟨token, hpos⟩
    dsimp only
    split
    next hempty => exact ⟨his, hrowless.mp hempty⟩
    next hempty =>
      exact ⟨fun _ => Classical.byContradiction fun hn => hempty (hrowless.mpr hn), fun _ => his⟩

theorem Keeps.vanish (h : t.Keeps d) (possible : List String) (client : ClientName) :
    (t.vanish client).1.possible = t.possible ∧
      (t.vanish client).1.Keeps (d.perform possible (.vanish client)) ∧
      d.Answers possible (.vanish client) (.updated (t.vanish client).2) := by
  have hothers : ∀ client', client' ≠ client → d.forget client client' = d client' :=
    fun client' hne => funext fun token => if_neg hne
  have hzero : ∀ token, d.forget client client token = 0 := fun token => if_pos rfl
  have hgone' : ¬ (d.forget client).Present client := fun ⟨token, hpos⟩ =>
    Nat.ne_of_gt hpos (hzero token)
  cases hrow : t.declared.get? client with
  | none =>
    have hvanish : t.vanish client = (t, ⟨[], .keep⟩) := by
      unfold InterestTable.vanish
      rw [hrow]
    have hsame : d.forget client = d := by
      funext client' token
      by_cases heq : client' = client
      · rw [heq, hzero, h.absent hrow]
      · rw [hothers client' heq]
    rw [hvanish]
    unfold Answers Declarations.perform
    dsimp only
    rw [hsame]
    exact ⟨rfl, h, .nil, ⟨by simp, by simp, .nil⟩, .rfl⟩
  | some row =>
    have hget : ∀ token, row.get? token = entry (d client token) := fun token => by
      rw [← h.rows, InterestTable.row, hrow]
      rfl
    have hascending : row.keys.Pairwise fun a b => compare a b = .lt :=
      row.ascending.map _ fun _ _ hlt => hlt
    have hgone : Released d (d.forget client) client row.keys := by
      refine ⟨fun token => ?_, hascending.imp fun hlt heq => ?_⟩
      · rw [SortedMap.mem_keys, SortedMap.contains, hget, isSome_entry]
        exact ⟨fun hpos => ⟨hpos, hzero token⟩, And.left⟩
      · rw [heq, Std.ReflOrd.compare_self] at hlt
        exact absurd hlt (by decide)
    have hle : ∀ token, d.forget client client token ≤ d client token := fun token => by
      rw [hzero]
      exact Nat.zero_le _
    have hempty : ∀ token, (SortedMap.empty : SortedMap String Nat).get? token =
        entry (d.forget client client token) := fun token => by
      rw [hzero]
      rfl
    obtain ⟨t', hrelease, hsame, hkeeps⟩ := h.release hempty hothers hle hgone
    have hvanish : t.vanish client = (t', ⟨(row.keys.filter fun token =>
        holding t.declared token = 1).map .uninterested, .stop⟩) := by
      unfold InterestTable.vanish
      rw [hrow]
      dsimp only
      rw [show t.declared.erase client = replaceRow t.declared client .empty from rfl, hrelease]
    rw [hvanish]
    refine ⟨hsame, hkeeps, (hascending.filter _).map _ fun _ _ hlt => hlt, ?_, ?_⟩
    · refine hgone.tells _ (fun token hheld => ?_) hothers hle
      rw [decide_eq_true_eq]
      exact h.holding_eq_one hheld
    · exact ⟨h.contains_declared.mp (by rw [SortedMap.contains, hrow]; rfl), hgone'⟩

theorem Keeps.clear (h : t.Keeps d) (possible : List String) :
    t.clear.1.possible = t.possible ∧ t.clear.1.Keeps (d.perform possible .clear) ∧
      d.Answers possible .clear (.cleared t.clear.2) := by
  refine ⟨rfl, ⟨fun _ _ => rfl, fun _ => Option.some_ne_none _ ∘ Eq.symm, fun _ => rfl⟩,
    t.declared.ascending.map _ fun _ _ hlt => hlt, fun client => ?_⟩
  rw [← h.contains_declared]
  exact SortedMap.mem_keys

/-- Every operation keeps the two counts of the table in line and answers what it is to answer. -/
theorem Keeps.perform (h : t.Keeps d) {possible : List String}
    (hpossible : t.possible = .ofList possible) (op : InterestOperation) :
    (t.perform op).1.possible = t.possible ∧ (t.perform op).1.Keeps (d.perform possible op) ∧
      d.Answers possible op (t.perform op).2 := by
  cases op with
  | add client tokens => exact h.add hpossible client tokens
  | remove client tokens => exact h.remove possible client tokens
  | vanish client => exact h.vanish possible client
  | clear => exact h.clear possible

/-! ## Runs -/

/-- Carries an operation out, remembering what was told since everything was last taken back. -/
def advance (s : InterestTable × List InterestTransition) (op : InterestOperation) :
    InterestTable × List InterestTransition :=
  ((s.1.perform op).1, (s.1.perform op).2.after s.2)

/-- The table after a run of operations on an empty one, and what was told since everything was last
taken back. -/
def run (possible : List String) (ops : List InterestOperation) :
    InterestTable × List InterestTransition :=
  ops.foldl advance (new possible, [])

/-- What a list of transitions says of a token, whether it turned wanted each time. -/
def turns (token : String) (transitions : List InterestTransition) : List Bool :=
  transitions.filterMap (·.turn? token)

/-- Reports that take turns, from one state to another, each of them telling what has come to be. -/
inductive Alternates : Bool → List Bool → Bool → Prop
  | nil (b : Bool) : Alternates b [] b
  | cons {b b' : Bool} {said : List Bool} (h : Alternates (!b) said b') :
      Alternates b ((!b) :: said) b'

theorem Alternates.append {b b₁ b' : Bool} {said said' : List Bool} (h : Alternates b said b₁)
    (h' : Alternates b₁ said' b') : Alternates b (said ++ said') b' := by
  induction h with
  | nil => exact h'
  | cons _ ih => exact .cons (ih h')

/-- One operation says of a token once what it turned to, if it did turn. -/
theorem alternates_turns {d d' : Declarations} {transitions : List InterestTransition}
    (h : Tells d d' transitions) {b b' : Bool} (hb : b = true ↔ d.Wanted token)
    (hb' : b' = true ↔ d'.Wanted token) : Alternates b (turns token transitions) b' := by
  have hmem : ∀ x, x ∈ turns token transitions ↔
      (if x then .interested token else .uninterested token) ∈ transitions := by
    intro x
    simp only [turns, List.mem_filterMap, InterestTransition.turn?_eq_some, exists_eq_right]
  have hup : true ∈ turns token transitions ↔ b = false ∧ b' = true := by
    rw [hmem, hb', ← Bool.not_eq_true, hb]
    exact h.interested token
  have hdown : false ∈ turns token transitions ↔ b = true ∧ b' = false := by
    rw [hmem, hb, ← Bool.not_eq_true b', hb']
    exact h.uninterested token
  have honce : (turns token transitions).Nodup := by
    refine List.Pairwise.filterMap _ (fun first second hne x hx y hy hxy => hne ?_) h.once
    rw [InterestTransition.turn?_eq_some.mp hx, InterestTransition.turn?_eq_some.mp hy, hxy]
  have hsaid : ∀ x, x ∈ turns token transitions ↔ b' = (!b) ∧ x = b' := by
    intro x
    cases x <;> simp only [hup, hdown] <;> cases b <;> cases b' <;> simp
  by_cases hsame : b' = !b
  · have hone : turns token transitions = [b'] :=
      ((List.perm_ext_iff_of_nodup honce (by simp)).mpr fun x => by
        rw [hsaid, List.mem_singleton, and_iff_right hsame]).eq_singleton
    rw [hone, hsame]
    exact .cons (.nil _)
  · have hnone : turns token transitions = [] :=
      List.eq_nil_iff_forall_not_mem.mpr fun x hx => hsame ((hsaid x).mp hx).1
    have hback : b' = b := by
      cases b <;> cases b' <;> simp at hsame ⊢
    rw [hnone, hback]
    exact .nil b

theorem Keeps.isWanted_iff (h : t.Keeps d) : t.isWanted token = true ↔ d.Wanted token := by
  rw [isWanted, decide_eq_true_eq, h.clientsInterested_eq]
  exact h.holding_pos

/-- A run keeps the table in line with the declarations and tells of every token by turns. -/
theorem keeps_run (possible : List String) (ops : List InterestOperation) :
    (run possible ops).1.possible = .ofList possible ∧
      (run possible ops).1.Keeps (Declarations.run possible ops) ∧
      ∀ token, Alternates false (turns token (run possible ops).2)
        ((run possible ops).1.isWanted token) := by
  suffices hall : ∀ (ops : List InterestOperation) (s : InterestTable × List InterestTransition)
      (d : Declarations), s.1.possible = .ofList possible → s.1.Keeps d →
      (∀ token, Alternates false (turns token s.2) (s.1.isWanted token)) →
      (ops.foldl advance s).1.possible = .ofList possible ∧
        (ops.foldl advance s).1.Keeps (ops.foldl (Declarations.perform possible) d) ∧
        ∀ token, Alternates false (turns token (ops.foldl advance s).2)
          ((ops.foldl advance s).1.isWanted token) from
    hall ops (new possible, []) Declarations.none rfl (keeps_new possible) fun token => .nil false
  intro ops
  induction ops with
  | nil => exact fun s d hpossible hkeeps hturns => ⟨hpossible, hkeeps, hturns⟩
  | cons op ops ih =>
    intro s d hpossible hkeeps hturns
    obtain ⟨hsame, hkeeps', hanswers⟩ := hkeeps.perform hpossible op
    refine ih (advance s op) (d.perform possible op) (hsame.trans hpossible) hkeeps' fun token => ?_
    have hupdated : ∀ u : InterestUpdate, (s.1.perform op).2 = .updated u →
        Tells d (d.perform possible op) u.transitions →
        Alternates false (turns token (advance s op).2) ((s.1.perform op).1.isWanted token) := by
      intro u hu htells
      rw [advance, hu, InterestAnswer.after, turns, List.filterMap_append]
      exact (hturns token).append
        (alternates_turns htells hkeeps.isWanted_iff hkeeps'.isWanted_iff)
    cases op with
    | add client tokens => exact hupdated _ rfl hanswers.2.1
    | remove client tokens => exact hupdated _ rfl hanswers.2.1
    | vanish client => exact hupdated _ rfl hanswers.2.1
    | clear => exact .nil false

/-- After any run of operations the table counts for each token the clients that hold it, and wants
the token if there are any. Whatever operation comes next, its answer names the tokens that turn
wanted or unwanted by it, in the order in which they do, and whether its client came or went. And
what was told of a token since everything was last taken back took turns, from wanted on. -/
theorem run_counts_declarations (possible : List String) (ops : List InterestOperation) :
    (∀ token,
      (∃ clients : List ClientName, clients.Nodup ∧
        (∀ client, client ∈ clients ↔ 0 < Declarations.run possible ops client token) ∧
        clients.length = (run possible ops).1.clientsInterested token) ∧
      ((run possible ops).1.isWanted token = true ↔
        0 < (run possible ops).1.clientsInterested token)) ∧
    (∀ op,
      (Declarations.run possible ops).Answers possible op ((run possible ops).1.perform op).2) ∧
    ∀ token, Alternates false (turns token (run possible ops).2)
      ((run possible ops).1.isWanted token) := by
  obtain ⟨hpossible, hkeeps, hturns⟩ := keeps_run possible ops
  refine ⟨fun token => ⟨?_, decide_eq_true_iff⟩,
    fun op => (hkeeps.perform hpossible op).2.2, hturns⟩
  rw [hkeeps.clientsInterested_eq]
  exact hkeeps.holding_eq token

end InterestTable

end Telepathy
