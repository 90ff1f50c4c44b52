import GroupButler.Foundation.Text
import Mathlib.Data.List.TakeWhile

/-!
# Owner numbers

The worker and the BFF each reduce what an operator typed, or a sender's address, to one phone number.
They read the same digits. Only the worker looks at the server an address names.
-/

namespace GroupButler.Owner
open Foundation

def userServer : String := "s.whatsapp.net"

def legacyUserServer : String := "c.us"

def fallbackCountryCode : String := "62"

def digitsOnly (cs : List Char) : List Char := cs.filter Char.isDigit

/-! ### The worker -/

def usableCountryCode (configured : String) : List Char :=
  let code := digitsOnly configured.toList
  if code.length = 0 ∨ 4 < code.length ∨ code.head? = some '0' then fallbackCountryCode.toList else code

/-- What follows the first `@`. -/
def serverOf (address : List Char) : Option (List Char) :=
  match address.dropWhile (· != '@') with
  | [] => none
  | _ :: server => some server

def isUserServer (server : List Char) : Bool := server == userServer.toList || server == legacyUserServer.toList

def ownerPhoneDigits (value countryCode : String) : String :=
  let address := (goTrimSpace value).toList
  if (serverOf address).any fun server => !isUserServer server then ""
  else
    -- a device suffix names a session of the account
    let user := (address.takeWhile (· != '@')).takeWhile fun c => c != '.' && c != ':'
    let digits := digitsOnly user
    let digits :=
      if "00".toList.isPrefixOf digits then digits.drop 2
      else if "0".toList.isPrefixOf digits then usableCountryCode countryCode ++ digits.dropWhile (· == '0')
      else digits
    if digits.length < 7 ∨ 15 < digits.length ∨ digits.head? = some '0' then "" else String.ofList digits

/-! ### The BFF -/

def whatsappJidSuffix : String := "@s.whatsapp.net"

/-- `/^[1-9][0-9]{low,high}$/` -/
def leadingNonzero (low high : Nat) (cs : List Char) : Bool :=
  match cs with
  | [] => false
  | first :: rest => '1' ≤ first && first ≤ '9' && rest.all Char.isDigit && low ≤ rest.length && rest.length ≤ high

def countryCode (configured : String) : List Char :=
  let code := configured.toList.filter Char.isDigit
  if leadingNonzero 0 3 code then code else fallbackCountryCode.toList

def normalizeAuthorizedJid (value configured : String) : Option String :=
  let trimmed := (jsTrim value).toList
  let localPart := (trimmed.takeWhile (· != '@')).takeWhile fun c => !(c == '.' || c == ':')
  let digits := localPart.filter Char.isDigit
  let digits :=
    if "00".toList.isPrefixOf digits then digits.drop 2
    else if "0".toList.isPrefixOf digits then countryCode configured ++ digits.dropWhile (· == '0')
    else digits
  if leadingNonzero 6 14 digits then some (String.ofList digits ++ whatsappJidSuffix) else none

/-! ### The digits both sides read -/

theorem digit_bounds {c : Char} (digit : c.isDigit = true) : '0' ≤ c ∧ c ≤ '9' := isDigit_iff.mp digit

/-- On digits the pattern is a length and a first digit. -/
theorem leadingNonzero_digits {low high : Nat} {cs : List Char} (digits : ∀ c ∈ cs, c.isDigit = true) :
    leadingNonzero low high cs = true ↔ low < cs.length ∧ cs.length ≤ high + 1 ∧ cs.head? ≠ some '0' := by
  cases cs with
  | nil => simp [leadingNonzero]
  | cons first rest =>
    have bounds := digit_bounds (digits first List.mem_cons_self)
    have rest_ : rest.all Char.isDigit = true :=
      List.all_eq_true.mpr fun c member => digits c (List.mem_cons_of_mem _ member)
    have nonzero : '1' ≤ first ↔ first ≠ '0' := by
      constructor
      · rintro above rfl
        exact absurd above (by decide)
      · intro different
        have apart : first.toNat ≠ '0'.toNat := fun same => different (char_eq_of_toNat same)
        have low : '0'.toNat ≤ first.toNat := bounds.1
        show '1'.toNat ≤ first.toNat
        have : '1'.toNat = '0'.toNat + 1 := rfl
        omega
    simp only [leadingNonzero, rest_, Bool.and_true, Bool.and_eq_true, decide_eq_true_eq, nonzero, bounds.2,
      List.length_cons, List.head?_cons, ne_eq, Option.some.injEq]
    constructor
    · rintro ⟨⟨different, least⟩, most⟩
      exact ⟨by omega, by omega, different.1⟩
    · rintro ⟨least, most, different⟩
      exact ⟨⟨⟨different, trivial⟩, by omega⟩, by omega⟩

theorem mem_digitsOnly {c : Char} {cs : List Char} (member : c ∈ digitsOnly cs) : c.isDigit = true :=
  (List.mem_filter.mp member).2

theorem countryCode_eq (configured : String) : countryCode configured = usableCountryCode configured := by
  have iff : leadingNonzero 0 3 (digitsOnly configured.toList) = true ↔ 0 < (digitsOnly configured.toList).length ∧
      (digitsOnly configured.toList).length ≤ 3 + 1 ∧ (digitsOnly configured.toList).head? ≠ some '0' :=
    leadingNonzero_digits fun _ => mem_digitsOnly
  unfold countryCode usableCountryCode
  change (if leadingNonzero 0 3 (digitsOnly configured.toList) then _ else _) = _
  by_cases usable : leadingNonzero 0 3 (digitsOnly configured.toList) = true
  · obtain ⟨least, most, head⟩ := iff.mp usable
    rw [if_pos usable, if_neg (by rintro (none | long | zero) <;> [omega; omega; exact head zero])]
    rfl
  · rw [if_neg usable, if_pos]
    by_contra all
    simp only [not_or] at all
    exact usable (iff.mpr ⟨by omega, by omega, all.2.2⟩)

/-- What an address says before its server and its device suffix. -/
def spelled (value : String) : List Char :=
  digitsOnly (value.toList.takeWhile fun c => c != '@' && c != '.' && c != ':')

section
variable {space plain : Char → Bool}

theorem digits_dropWhile (apart : ∀ c, space c = true → plain c = true ∧ c.isDigit = false) (cs : List Char) :
    digitsOnly ((cs.dropWhile space).takeWhile plain) = digitsOnly (cs.takeWhile plain) := by
  induction cs with
  | nil => rfl
  | cons c cs ih =>
    by_cases blank : space c = true
    · obtain ⟨inside, notDigit⟩ := apart c blank
      rw [List.dropWhile_cons_of_pos blank, ih, List.takeWhile_cons_of_pos inside]
      simp [digitsOnly, notDigit]
    · rw [List.dropWhile_cons_of_neg blank]

theorem digits_append_blank {blanks : List Char} (cs : List Char)
    (blank : ∀ c ∈ blanks, plain c = true ∧ c.isDigit = false) :
    digitsOnly ((cs ++ blanks).takeWhile plain) = digitsOnly (cs.takeWhile plain) := by
  induction cs with
  | nil =>
    rw [List.nil_append, List.takeWhile_eq_self_iff.mpr fun c member => (blank c member).1, List.takeWhile_nil]
    exact List.filter_eq_nil_iff.mpr fun c member => by simp [(blank c member).2]
  | cons c cs ih =>
    rw [List.cons_append]
    by_cases inside : plain c = true
    · rw [List.takeWhile_cons_of_pos inside, List.takeWhile_cons_of_pos inside]
      unfold digitsOnly at ih ⊢
      rw [List.filter_cons, List.filter_cons, ih]
    · rw [List.takeWhile_cons_of_neg inside, List.takeWhile_cons_of_neg inside]

theorem digits_trim (apart : ∀ c, space c = true → plain c = true ∧ c.isDigit = false) (s : String) :
    digitsOnly ((trimChars space s).toList.takeWhile plain) = digitsOnly (s.toList.takeWhile plain) := by
  unfold trimChars
  rw [String.toList_ofList]
  have parts := List.takeWhile_append_dropWhile (p := space) (l := (s.toList.dropWhile space).reverse)
  have blank : ∀ c ∈ (((s.toList.dropWhile space).reverse).takeWhile space).reverse,
      plain c = true ∧ c.isDigit = false := by
    intro c member
    exact apart c (List.mem_takeWhile_imp (List.mem_reverse.mp member))
  calc digitsOnly ((((s.toList.dropWhile space).reverse).dropWhile space).reverse.takeWhile plain)
      = digitsOnly ((((((s.toList.dropWhile space).reverse).dropWhile space).reverse) ++
          (((s.toList.dropWhile space).reverse).takeWhile space).reverse).takeWhile plain) :=
        (digits_append_blank _ blank).symm
    _ = digitsOnly ((s.toList.dropWhile space).takeWhile plain) := by
        rw [← List.reverse_append, parts, List.reverse_reverse]
    _ = digitsOnly (s.toList.takeWhile plain) := digits_dropWhile apart _

end

theorem blank_apart {c : Char} (blank : isGoSpace c = true ∨ isJsSpace c = true) :
    (c != '@' && c != '.' && c != ':') = true ∧ c.isDigit = false := by
  have code := blank_code blank
  have other : ∀ d : Char, 0x20 < d.toNat → d.toNat < 0x85 → c ≠ d := by
    rintro d above below rfl
    omega
  refine ⟨by simp [other '@' (by decide) (by decide), other '.' (by decide) (by decide),
    other ':' (by decide) (by decide)], ?_⟩
  by_contra digit
  have bounds := isDigit_iff.mp (Bool.not_eq_false _ ▸ digit)
  omega

/-- Whatever either side trims, and in whichever order it cuts the address, the digits are the same. -/
theorem spelled_trim {space : Char → Bool} (known : ∀ c, space c = true → isGoSpace c = true ∨ isJsSpace c = true)
    (value : String) :
    digitsOnly (((trimChars space value).toList.takeWhile (· != '@')).takeWhile fun c => c != '.' && c != ':') =
      spelled value := by
  have cut : (fun c : Char => decide ((c != '.' && c != ':') = true ∧ (c != '@') = true)) =
      fun c => c != '@' && c != '.' && c != ':' := by
    funext c
    rw [Bool.decide_and, Bool.decide_coe, Bool.decide_coe, Bool.and_comm, Bool.and_assoc]
  rw [List.takeWhile_takeWhile, cut]
  exact digits_trim (fun c blank => blank_apart (known c blank)) value

/-! ### Agreement -/

/-- The digits with their country code. -/
def international (countryCode : String) (digits : List Char) : List Char :=
  if "00".toList.isPrefixOf digits then digits.drop 2
  else if "0".toList.isPrefixOf digits then usableCountryCode countryCode ++ digits.dropWhile (· == '0')
  else digits

/-- The part before the server spells a phone number. -/
def spellsPhone (value countryCode : String) : Bool := leadingNonzero 6 14 (international countryCode (spelled value))

/-- The server an address names. -/
def namedServer (value : String) : Option (List Char) := serverOf (goTrimSpace value).toList

theorem international_digits {countryCode : String} {digits : List Char} (all : ∀ c ∈ digits, c.isDigit = true) :
    ∀ c ∈ international countryCode digits, c.isDigit = true := by
  have code : ∀ c ∈ usableCountryCode countryCode, c.isDigit = true := by
    intro c member
    simp only [usableCountryCode] at member
    split at member
    · revert c
      exact forall_mem_of_all (by decide)
    · exact mem_digitsOnly member
  intro c member
  unfold international at member
  split at member
  · exact all c (List.mem_of_mem_drop member)
  · split at member
    · rcases List.mem_append.mp member with country | national
      · exact code c country
      · exact all c (List.dropWhile_subset _ national)
    · exact all c member

theorem spellsPhone_iff (value countryCode : String) : spellsPhone value countryCode = true ↔
    ¬ ((international countryCode (spelled value)).length < 7 ∨ 15 < (international countryCode (spelled value)).length ∨
      (international countryCode (spelled value)).head? = some '0') := by
  have digits : ∀ c ∈ international countryCode (spelled value), c.isDigit = true :=
    international_digits fun c member => mem_digitsOnly member
  rw [spellsPhone, leadingNonzero_digits digits]
  simp only [not_or, not_lt]
  exact and_congr_left' Nat.succ_le_iff.symm

theorem ownerPhoneDigits_eq (value countryCode : String) : ownerPhoneDigits value countryCode =
    if (namedServer value).all isUserServer && spellsPhone value countryCode then
      String.ofList (international countryCode (spelled value))
    else "" := by
  have read : digitsOnly (((goTrimSpace value).toList.takeWhile (· != '@')).takeWhile fun c => c != '.' && c != ':') =
      spelled value := spelled_trim (fun c blank => Or.inl blank) value
  have server : (serverOf (goTrimSpace value).toList).any (fun server => !isUserServer server) =
      !(namedServer value).all isUserServer := by
    unfold namedServer
    cases serverOf (goTrimSpace value).toList <;> simp
  simp only [ownerPhoneDigits, server, read]
  rw [← international]
  cases user : (namedServer value).all isUserServer with
  | false => simp
  | true =>
    by_cases phone : spellsPhone value countryCode = true
    · rw [if_neg (by simp), if_neg ((spellsPhone_iff value countryCode).mp phone), if_pos (by simp [phone])]
    · have short := by_contra fun fits => phone ((spellsPhone_iff value countryCode).mpr fits)
      rw [if_neg (by simp), if_pos short, if_neg (by simp [phone])]

theorem normalizeAuthorizedJid_eq (value configured : String) : normalizeAuthorizedJid value configured =
    if spellsPhone value configured then
      some (String.ofList (international configured (spelled value)) ++ whatsappJidSuffix)
    else none := by
  have cut : (fun c : Char => !(c == '.' || c == ':')) = fun c => c != '.' && c != ':' := by
    funext c
    exact Bool.not_or _ _
  have read : ((((jsTrim value).toList.takeWhile (· != '@')).takeWhile fun c => c != '.' && c != ':').filter
      Char.isDigit) = spelled value := spelled_trim (fun c blank => Or.inr blank) value
  simp only [normalizeAuthorizedJid, cut, read, countryCode_eq]
  rw [← international, ← spellsPhone]

/-- Both sides read the same number out of an address, or none, and none out of another server's. -/
def Agree (value countryCode : String) : Prop :=
  (ownerPhoneDigits value countryCode ≠ "" ↔ normalizeAuthorizedJid value countryCode ≠ none) ∧
  (∀ jid, normalizeAuthorizedJid value countryCode = some jid →
    jid = ownerPhoneDigits value countryCode ++ whatsappJidSuffix) ∧
  ∀ server, namedServer value = some server → isUserServer server = false →
    ownerPhoneDigits value countryCode = "" ∧ normalizeAuthorizedJid value countryCode = none

theorem agree_iff (value countryCode : String) :
    Agree value countryCode ↔ (namedServer value).all isUserServer = true ∨ spellsPhone value countryCode = false := by
  unfold Agree
  rw [ownerPhoneDigits_eq, normalizeAuthorizedJid_eq]
  cases phone : spellsPhone value countryCode with
  | false => simp
  | true =>
    have nonempty : String.ofList (international countryCode (spelled value)) ≠ "" := by
      intro none
      have short := (spellsPhone_iff value countryCode).mp phone
      have empty : international countryCode (spelled value) = [] := by simpa using congrArg String.toList none
      exact short (Or.inl (by rw [empty]; decide))
    cases user : (namedServer value).all isUserServer with
    | false => simp
    | true =>
      have own : ∀ server, namedServer value = some server → isUserServer server = true := by
        intro server named
        rw [named, Option.all_some] at user
        exact user
      simpa [nonempty] using own

/-- A group is read as an owner, and so is a hidden user. -/
theorem group_read_as_owner : ¬ Agree "120363043123456@g.us" "" ∧ ¬ Agree "628996926184@lid" "" := by
  refine ⟨fun agree => ?_, fun agree => ?_⟩
  all_goals exact absurd (agree.1.mpr (by decide)) (by decide)

example : ownerPhoneDigits " 0899-6926-184" "not-a-code" = "628996926184" ∧
    normalizeAuthorizedJid "628996926184:12@c.us" "" = some "628996926184@s.whatsapp.net" := by decide

end GroupButler.Owner
