import Telepathy.Config.Basic
import Telepathy.Connection.Names
import Telepathy.Proofs.Fallible
import Telepathy.Text.Digits

set_option autoImplicit false

/-!
# Names of a connection

Bus names are read element by element and object paths segment by segment, so what stands in either
must not break it into more parts than were meant. Identifiers do not: they hold no separator. They
also tell apart what they were made of, because the escape can be undone: an underscore is never
kept, so it marks the two digits of a byte wherever it stands, except alone, where it is the empty
text.
-/

namespace Telepathy

/-! ## Elements -/

/-- Whether a text may stand between two separators of a bus name or of an object path. -/
structure IsElement (s : String) : Prop where
  nonempty : s ≠ ""
  plain : ∀ c ∈ s.toList, Config.isNameChar c = true
  noLeadingDigit : ∀ c ∈ s.toList.head?, c.isDigit = false

/-- The elements of a bus name. -/
def BusName.elements (n : BusName) : List String := (n.text.toList.splitOn '.').map .ofList

/-- The segments of an object path. The first is empty, because a path begins with a separator. -/
def ObjectPath.segments (p : ObjectPath) : List String := (p.text.toList.splitOn '/').map .ofList

/-- A text is split into the parts it was made of, unless a part holds the separator. -/
theorem splitOn_intercalate_strings {separator : Char} {parts : List String} (hparts : parts ≠ [])
    (hclean : ∀ part ∈ parts, separator ∉ part.toList) :
    (([separator].intercalate (parts.map String.toList)).splitOn separator).map .ofList =
      parts := by
  rw [List.splitOn_intercalate _ (by simpa using hclean) (by simpa using hparts)]
  simp [Function.comp_def]

theorem IsElement.clean {s : String} (h : IsElement s) {separator : Char}
    (hseparator : Config.isNameChar separator = false) : separator ∉ s.toList := fun hmem => by
  rw [h.plain separator hmem] at hseparator
  cases hseparator

namespace Config

theorem isDigit_of_isAlpha {c : Char} (h : c.isAlpha = true) : c.isDigit = false := by
  have hletter : (decide ('A'.val ≤ c.val ∧ c.val ≤ 'Z'.val) ||
      (decide ('a'.val ≤ c.val) && decide (c.val ≤ 'z'.val))) = true := h
  show (decide ('0'.val ≤ c.val) && decide (c.val ≤ '9'.val)) = false
  simp only [Bool.or_eq_true, Bool.and_eq_true, decide_eq_true_eq, UInt32.le_iff_toNat_le,
    Bool.and_eq_false_iff, decide_eq_false_iff_not] at hletter ⊢
  have hlower : 'a'.val.toNat = 97 := rfl
  have hupper : 'A'.val.toNat = 65 := rfl
  have hdigit : '9'.val.toNat = 57 := rfl
  omega

theorem managerNameFlaw?_eq_none {cs : List Char} (h : managerNameFlaw? cs = none) :
    ∃ c rest, cs = c :: rest ∧ c.isAlpha = true ∧ ∀ d ∈ rest, isNameChar d = true := by
  cases cs with
  | nil => cases h
  | cons c rest =>
    simp only [managerNameFlaw?] at h
    split at h
    · cases h
    · next halpha =>
      split at h
      · cases h
      · next hrest =>
        exact ⟨c, rest, rfl, by simpa using halpha, List.all_eq_true.mp (by simpa using hrest)⟩

theorem managerNameFlaw?_of_validate {config : Config} (h : config.validate = .ok ()) :
    managerNameFlaw? config.connectionManager.toList = none := by
  unfold validate at h
  split at h
  · assumption
  · cases h

/-- An accepted name of a manager can stand in a bus name. -/
theorem isElement_of_validate {config : Config} (h : config.validate = .ok ()) :
    IsElement config.connectionManager := by
  obtain ⟨c, rest, hname, halpha, hrest⟩ :=
    managerNameFlaw?_eq_none (managerNameFlaw?_of_validate h)
  refine ⟨?_, ?_, ?_⟩
  · rintro hempty
    simp [hempty] at hname
  · rw [hname, List.forall_mem_cons]
    exact ⟨by simp [isNameChar, Char.isAlphanum, halpha], hrest⟩
  · rw [hname]
    rintro _ ⟨⟩
    exact isDigit_of_isAlpha halpha

end Config

namespace Names

/-! ## Identifiers are elements -/

theorem digitChar_plain : ∀ n < 16,
    Config.isNameChar n.digitChar = true ∧ Text.hexDigit? n.digitChar = some n := by
  decide

theorem isNameChar_hexDigit (n : Nat) : Config.isNameChar (hexDigit n) = true :=
  (digitChar_plain _ (Nat.mod_lt _ (by decide))).1

theorem hexDigit?_hexDigit (n : Nat) : Text.hexDigit? (hexDigit n) = some (n % 16) :=
  (digitChar_plain _ (Nat.mod_lt _ (by decide))).2

theorem kept_byte : ∀ n < 256, (isLetterByte (.ofNat n) || isDigitByte (.ofNat n)) = true →
    (Char.ofNat n).toNat = n ∧ Char.ofNat n ≠ '_' ∧ Config.isNameChar (.ofNat n) = true ∧
      (Char.ofNat n).isDigit = isDigitByte (.ofNat n) := by
  decide +kernel

/-- A byte that is kept is a character of its own number, and not the mark of the escape. -/
theorem kept {b : UInt8} (h : (isLetterByte b || isDigitByte b) = true) :
    (Char.ofNat b.toNat).toNat = b.toNat ∧ Char.ofNat b.toNat ≠ '_' ∧
      Config.isNameChar (.ofNat b.toNat) = true ∧
      (Char.ofNat b.toNat).isDigit = isDigitByte b := by
  have hbyte : UInt8.ofNat b.toNat = b := UInt8.ofNat_toNat
  simpa only [hbyte] using kept_byte b.toNat b.toNat_lt_size (by rwa [hbyte])

/-- A byte of an identifier is kept, or it is escaped. -/
theorem identifierByte_cases (isFirst : Bool) (b : UInt8) :
    (identifierByte isFirst b = [Char.ofNat b.toNat] ∧
        (isLetterByte b || isDigitByte b) = true ∧ (isFirst = true → isLetterByte b = true)) ∨
      identifierByte isFirst b = escapeByte b := by
  unfold identifierByte
  split
  · next hkept =>
    left
    cases isFirst <;> simp_all
  · exact .inr rfl

theorem plain_identifierByte (isFirst : Bool) (b : UInt8) :
    ∀ c ∈ identifierByte isFirst b, Config.isNameChar c = true := by
  obtain ⟨hbyte, hkept, -⟩ | hbyte := identifierByte_cases isFirst b <;> rw [hbyte]
  · simpa using (kept hkept).2.2.1
  · have hmark : Config.isNameChar '_' = true := rfl
    simp [escapeByte, isNameChar_hexDigit, hmark]

/-- An identifier starts with an underscore or a letter. -/
theorem head?_identifierByte (b : UInt8) (rest : List Char) :
    ∀ c ∈ (identifierByte true b ++ rest).head?, c.isDigit = false := by
  obtain ⟨hbyte, hkept, hletter⟩ | hbyte := identifierByte_cases true b <;> rw [hbyte]
  · have hdigit : isDigitByte b = false := by
      have := hletter rfl
      simp only [isLetterByte, isDigitByte, Bool.or_eq_true, Bool.and_eq_true, decide_eq_true_eq,
        UInt8.le_iff_toNat_le, Bool.and_eq_false_iff, decide_eq_false_iff_not] at this ⊢
      grind
    simpa [hdigit] using (kept hkept).2.2.2
  · simp [escapeByte]

theorem identifierByte_ne_nil (isFirst : Bool) (b : UInt8) : identifierByte isFirst b ≠ [] := by
  obtain ⟨hbyte, -⟩ | hbyte := identifierByte_cases isFirst b <;> simp [hbyte, escapeByte]

theorem isElement_escape (s : String) : IsElement (escape s) := by
  unfold escape
  cases s.toUTF8.data.toList with
  | nil =>
    have hchars : (String.ofList (escapeBytes [])).toList = ['_'] := String.toList_ofList
    refine ⟨fun hempty => ?_, ?_, ?_⟩
    · rw [hempty] at hchars
      cases hchars
    · simp [hchars, Config.isNameChar]
    · rw [hchars]
      rintro _ ⟨⟩
      rfl
  | cons b rest =>
    have hchars : (String.ofList (escapeBytes (b :: rest))).toList =
        identifierByte true b ++ rest.flatMap (identifierByte false) := String.toList_ofList
    refine ⟨fun hempty => ?_, ?_, ?_⟩
    · rw [hempty] at hchars
      simp [identifierByte_ne_nil] at hchars
    · rw [hchars]
      intro c hc
      obtain hc | hc := List.mem_append.mp hc
      · exact plain_identifierByte true b c hc
      · obtain ⟨d, -, hc⟩ := List.mem_flatMap.mp hc
        exact plain_identifierByte false d c hc
    · rw [hchars]
      exact head?_identifierByte b _

example : escape "3 é" = "_33_20_c3_a9" := by decide +kernel

/-! ## Undoing the escape -/

/-- The bytes behind an identifier. -/
def unescape? : List Char → Option (List UInt8)
  | [] => some []
  | ['_'] => some []
  | '_' :: high :: low :: rest => do
    let byte ← Text.hexadecimal? [high, low]
    return UInt8.ofNat byte :: (← unescape? rest)
  | c :: rest => return UInt8.ofNat c.toNat :: (← unescape? rest)

theorem hexadecimal?_hexDigit (b : UInt8) :
    Text.hexadecimal? [hexDigit (b.toNat / 16), hexDigit b.toNat] = some b.toNat := by
  have hbound : b.toNat < 256 := b.toNat_lt_size
  have hhigh : b.toNat / 16 % 16 < 16 := Nat.mod_lt _ (by decide)
  have hlow : b.toNat % 16 < 16 := Nat.mod_lt _ (by decide)
  simp only [Text.hexadecimal?, Text.inBase?, List.foldlM_cons, List.foldlM_nil,
    hexDigit?_hexDigit, Option.bind_eq_bind, Option.bind_some, if_pos hhigh, if_pos hlow]
  congr 1
  omega

theorem unescape?_of_ne_mark {c : Char} (hc : c ≠ '_') (rest : List Char) :
    unescape? (c :: rest) = (unescape? rest).map (UInt8.ofNat c.toNat :: ·) := by
  rw [unescape?]
  · cases unescape? rest <;> rfl
  all_goals simp_all

/-- The characters of one byte are read back as that byte, wherever they stand. -/
theorem unescape?_identifierByte (isFirst : Bool) (b : UInt8) (rest : List Char) :
    unescape? (identifierByte isFirst b ++ rest) = (unescape? rest).map (b :: ·) := by
  obtain ⟨hbyte, hkept, -⟩ | hbyte := identifierByte_cases isFirst b <;> rw [hbyte]
  · obtain ⟨hnumber, hmark, -⟩ := kept hkept
    rw [List.singleton_append, unescape?_of_ne_mark hmark, hnumber, UInt8.ofNat_toNat]
  · simp only [escapeByte, List.cons_append, List.nil_append, unescape?, hexadecimal?_hexDigit,
      Option.bind_eq_bind, Option.bind_some, UInt8.ofNat_toNat]
    cases unescape? rest <;> rfl

theorem unescape?_flatMap (bytes : List UInt8) :
    unescape? (bytes.flatMap (identifierByte false)) = some bytes := by
  induction bytes with
  | nil => rfl
  | cons b rest ih => rw [List.flatMap_cons, unescape?_identifierByte, ih, Option.map_some]

theorem unescape?_escapeBytes (bytes : List UInt8) :
    unescape? (escapeBytes bytes) = some bytes := by
  cases bytes with
  | nil => rfl
  | cons b rest => rw [escapeBytes, unescape?_identifierByte, unescape?_flatMap, Option.map_some]

/-- Different texts have different identifiers. -/
theorem escape_inj {s t : String} : escape s = escape t ↔ s = t := by
  refine ⟨fun h => ?_, congrArg escape⟩
  have hchars : escapeBytes s.toUTF8.data.toList = escapeBytes t.toUTF8.data.toList :=
    String.ofList_injective h
  have hbytes := congrArg unescape? hchars
  rw [unescape?_escapeBytes, unescape?_escapeBytes, Option.some_inj] at hbytes
  exact String.toByteArray_inj.mp (ByteArray.ext (Array.ext' hbytes))

/-! ## The parts of the names -/

/-- The elements and segments before the name of the manager. -/
def domain : List String := ["org", "freedesktop", "Telepathy", "Connection"]

/-- Names that are read as the domain and three elements of their own. -/
structure WellFormed (names : Names) : Prop where
  elements : ∃ own, names.busName.elements = domain ++ own ∧ own.length = 3 ∧
    ∀ element ∈ own, IsElement element
  segments : ∃ own, names.path.segments = "" :: domain ++ own ∧ own.length = 3 ∧
    ∀ segment ∈ own, IsElement segment

/-- A text made of a base and elements is read as these parts. -/
theorem parts_of_text {separator : Char} (hseparator : Config.isNameChar separator = false)
    {base own : List String} (hbase : ∀ part ∈ base, separator ∉ part.toList)
    (hown : ∀ part ∈ own, IsElement part) (hparts : base ++ own ≠ []) {text : String}
    (htext : text.toList = [separator].intercalate ((base ++ own).map String.toList)) :
    (text.toList.splitOn separator).map .ofList = base ++ own := by
  rw [htext, splitOn_intercalate_strings hparts]
  intro part hpart
  obtain hpart | hpart := List.mem_append.mp hpart
  · exact hbase part hpart
  · exact (hown part hpart).clean hseparator

variable {manager protocol account : String}

/-- The parts that are a connection's own. -/
def own (manager protocol account : String) : List String :=
  [manager, escape protocol, escape account]

theorem isElement_own (hmanager : IsElement manager) :
    ∀ part ∈ own manager protocol account, IsElement part := by
  simp [own, hmanager, isElement_escape]

/-- The parts tell the manager, the protocol and the account. -/
theorem own_inj {manager' protocol' account' : String} :
    own manager protocol account = own manager' protocol' account' ↔
      (manager, protocol, account) = (manager', protocol', account') := by
  simp [own, escape_inj]

theorem elements_new (hmanager : IsElement manager) :
    (new manager protocol account).busName.elements = domain ++ own manager protocol account := by
  refine parts_of_text rfl (by decide) (isElement_own hmanager) (by simp [domain]) ?_
  have hbase : "org.freedesktop.Telepathy.Connection.".toList =
      ['.'].intercalate (domain.map String.toList) ++ ['.'] := by decide
  have hdot : ".".toList = ['.'] := rfl
  show (toString "org.freedesktop.Telepathy.Connection." ++ toString manager ++ toString "." ++
    toString (escape protocol) ++ toString "." ++ toString (escape account)).toList = _
  simp only [toString, String.toList_append, hbase, hdot, domain, own, List.map_cons, List.map_nil,
    List.cons_append, List.nil_append, List.intercalate_cons_cons, List.intercalate_singleton,
    List.append_assoc]

theorem segments_new (hmanager : IsElement manager) :
    (new manager protocol account).path.segments =
      "" :: domain ++ own manager protocol account := by
  refine parts_of_text rfl (by decide) (isElement_own hmanager) (by simp [domain]) ?_
  have hbase : "/org/freedesktop/Telepathy/Connection/".toList =
      ['/'].intercalate (("" :: domain).map String.toList) ++ ['/'] := by decide
  have hslash : "/".toList = ['/'] := rfl
  show (toString "/org/freedesktop/Telepathy/Connection/" ++ toString manager ++ toString "/" ++
    toString (escape protocol) ++ toString "/" ++ toString (escape account)).toList = _
  simp only [toString, String.toList_append, hbase, hslash, domain, own, List.map_cons,
    List.map_nil, List.cons_append, List.nil_append, List.intercalate_cons_cons,
    List.intercalate_singleton, List.append_assoc]

theorem wellFormed_new (hmanager : IsElement manager) :
    (new manager protocol account).WellFormed where
  elements := ⟨_, elements_new hmanager, rfl, isElement_own hmanager⟩
  segments := ⟨_, segments_new hmanager, rfl, isElement_own hmanager⟩

variable {manager' protocol' account' : String}

theorem new_congr (h : (manager, protocol, account) = (manager', protocol', account')) :
    new manager protocol account = new manager' protocol' account' := by
  cases h
  rfl

theorem busName_inj (hmanager : IsElement manager) (hmanager' : IsElement manager') :
    (new manager protocol account).busName = (new manager' protocol' account').busName ↔
      (manager, protocol, account) = (manager', protocol', account') := by
  refine ⟨fun hname => ?_, fun h => congrArg busName (new_congr h)⟩
  have hparts := congrArg BusName.elements hname
  rw [elements_new hmanager, elements_new hmanager', List.append_cancel_left_eq] at hparts
  exact own_inj.mp hparts

theorem path_inj (hmanager : IsElement manager) (hmanager' : IsElement manager') :
    (new manager protocol account).path = (new manager' protocol' account').path ↔
      (manager, protocol, account) = (manager', protocol', account') := by
  refine ⟨fun hpath => ?_, fun h => congrArg path (new_congr h)⟩
  have hparts := congrArg ObjectPath.segments hpath
  rw [segments_new hmanager, segments_new hmanager', List.append_cancel_left_eq] at hparts
  exact own_inj.mp hparts

/-- The names of connections of accepted managers are well-formed, and no two connections share one:
the bus name and the path each tell the manager, the protocol and the account. -/
theorem wellFormed_and_injective {config config' : Config} (h : config.validate = .ok ())
    (h' : config'.validate = .ok ()) (protocol account protocol' account' : String) :
    let names := new config.connectionManager protocol account
    let names' := new config'.connectionManager protocol' account'
    names.WellFormed ∧
      (names.busName = names'.busName ↔ (config.connectionManager, protocol, account) =
        (config'.connectionManager, protocol', account')) ∧
      (names.path = names'.path ↔ (config.connectionManager, protocol, account) =
        (config'.connectionManager, protocol', account')) ∧
      Function.Injective escape :=
  have hmanager := Config.isElement_of_validate h
  have hmanager' := Config.isElement_of_validate h'
  ⟨wellFormed_new hmanager, busName_inj hmanager hmanager', path_inj hmanager hmanager',
    fun _ _ => escape_inj.mp⟩

/-- The account `_33` is not taken for the account `3`, whose digit is escaped. -/
theorem wellFormed_and_injective_gabble :
    (new "gabble" "jabber" "3").busName ≠ (new "gabble" "jabber" "_33").busName ∧
      (new "gabble" "jabber" "3").WellFormed := by
  have hgabble : ({ Config.standard with connectionManager := "gabble" }).validate = .ok () := rfl
  have h := wellFormed_and_injective hgabble hgabble "jabber" "3" "jabber" "_33"
  exact ⟨fun hname => absurd (h.2.1.mp hname) (by decide), h.1⟩

end Names

end Telepathy
