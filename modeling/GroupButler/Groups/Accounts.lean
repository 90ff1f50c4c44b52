import Mathlib.Data.List.TakeWhile
import GroupButler.Groups.Admin

/-!
# The account an address names

`normalizeAddress` gives the spellings of one account one spelling, and `sameAccount` compares by it: whether
the bot is an admin, and what became of each participant of a membership change.
-/

namespace GroupButler.Groups
open Foundation Ingest Sends

/-- What the case tables keep: a letter folds once, and neither white space nor a mark of an address is a
letter or comes of one. -/
class UnicodeFolding [Unicode] : Prop where
  toLower_toLower : ∀ c, Unicode.toLower (Unicode.toLower c) = Unicode.toLower c
  space : ∀ c, isGoSpace (Unicode.toLower c) = isGoSpace c
  mark : ∀ c, ∀ mark ∈ ['/', '@', ',', ':'], Unicode.toLower c = mark ↔ c = mark

section
variable [Unicode]

def normalizeAddress (raw : String) : String :=
  match parseAddress raw with
  | some address => address.render
  | none => toLower (goTrimSpace raw)

def sameAccount (one other : String) : Bool :=
  let address := normalizeAddress one
  address != "" && address == normalizeAddress other

end

/-! ### Parsed addresses -/

structure WellFormedAddress (address : WaAddress) : Prop where
  user_some : address.user.toList ≠ []
  server_some : address.server.toList ≠ []
  user : isAddressPart address.user.toList = true
  deviceless : ':' ∉ address.user.toList
  server : isAddressPart address.server.toList = true

theorem isAddressPart_iff {part : List Char} :
    isAddressPart part = true ↔ ∀ c ∈ part, isGoSpace c = false ∧ c ≠ '/' ∧ c ≠ '@' ∧ c ≠ ',' := by
  simp [isAddressPart, and_assoc]

/-- What the two parts of an address are once they have passed. -/
theorem wellFormed_of_parts {user server : List Char} (deviceless : ':' ∉ user)
    (usable : (user.isEmpty || server.isEmpty || !isAddressPart user || !isAddressPart server) = false) :
    WellFormedAddress ⟨String.ofList user, String.ofList server⟩ := by
  rw [Bool.or_eq_false_iff, Bool.or_eq_false_iff, Bool.or_eq_false_iff, Bool.not_eq_false', Bool.not_eq_false'] at usable
  obtain ⟨⟨⟨someUser, someServer⟩, userPart⟩, serverPart⟩ := usable
  constructor
  · simpa using someUser
  · simpa using someServer
  · rwa [String.toList_ofList]
  · rwa [String.toList_ofList]
  · rwa [String.toList_ofList]

theorem parseAddress_wellFormed {raw : String} {address : WaAddress} (parsed : parseAddress raw = some address) :
    WellFormedAddress address := by
  unfold parseAddress at parsed
  dsimp only at parsed
  split at parsed
  · split at parsed
    · cases parsed
    · rename_i usable
      rw [← Option.some.inj parsed]
      apply wellFormed_of_parts _ (Bool.eq_false_iff.mpr usable)
      intro member
      have kept := List.mem_takeWhile_imp member
      simp at kept
  · cases parsed

theorem parseAddress_render {address : WaAddress} (formed : WellFormedAddress address) : parseAddress address.render = some address := by
  obtain ⟨someUser, someServer, user, deviceless, server⟩ := formed
  have userPart := isAddressPart_iff.mp user
  have serverPart := isAddressPart_iff.mp server
  have written : address.render.toList = address.user.toList ++ '@' :: address.server.toList := by
    rw [WaAddress.render, String.toList_append, String.toList_append, List.append_assoc]
    rfl
  have trimmed : goTrimSpace address.render = address.render := by
    apply trimChars_of_ends
    · intro c first
      rw [written, List.head?_append_of_ne_nil _ someUser] at first
      exact (userPart c (List.mem_of_mem_head? first)).1
    · intro c last
      rw [written, List.getLast?_append_of_ne_nil _ (List.cons_ne_nil _ _), List.getLast?_cons_of_ne_nil someServer] at last
      exact (serverPart c (List.mem_of_getLast? last)).1
  have front : (address.user.toList ++ '@' :: address.server.toList).takeWhile (· != '@') = address.user.toList := by
    rw [List.takeWhile_append_of_pos fun c member => by simpa using (userPart c member).2.2.1]
    simp
  have back : (address.user.toList ++ '@' :: address.server.toList).dropWhile (· != '@') = '@' :: address.server.toList := by
    rw [List.dropWhile_append_of_pos fun c member => by simpa using (userPart c member).2.2.1]
    simp
  have whole : address.user.toList.takeWhile (· != ':') = address.user.toList := by
    refine List.takeWhile_eq_self_iff.mpr fun c member => ?_
    simp only [bne_iff_ne, ne_eq]
    rintro rfl
    exact deviceless member
  have usable : (address.user.toList.isEmpty || address.server.toList.isEmpty || !isAddressPart address.user.toList ||
      !isAddressPart address.server.toList) = false := by
    simp [user, server, someUser, someServer]
  unfold parseAddress
  dsimp only
  rw [trimmed, written, if_pos (by simp), front, back, whole, List.tail_cons, usable]
  simp

theorem render_inj {x y : WaAddress} (formedX : WellFormedAddress x) (formedY : WellFormedAddress y)
    (same : x.render = y.render) : x = y := by
  have read := parseAddress_render formedX
  rw [same, parseAddress_render formedY] at read
  exact (Option.some.inj read).symm

theorem parseAddress_goTrimSpace (raw : String) : parseAddress (goTrimSpace raw) = parseAddress raw := by
  have twice : goTrimSpace (goTrimSpace raw) = goTrimSpace raw := trimChars_trimChars isGoSpace raw
  rw [parseAddress, parseAddress, twice]

/-! ### Letter case -/

section
variable [Unicode] [UnicodeFolding]

theorem toLower_toLower (s : String) : toLower (toLower s) = toLower s := by
  simp only [toLower, String.toList_ofList, List.map_map]
  congr 1
  exact List.map_congr_left fun c _ => UnicodeFolding.toLower_toLower c

theorem goTrimSpace_toLower (s : String) : goTrimSpace (toLower s) = toLower (goTrimSpace s) :=
  trimChars_map UnicodeFolding.space s

theorem toLower_ne_mark {mark : Char} (listed : mark ∈ ['/', '@', ',', ':']) :
    (fun c => c != mark) ∘ Unicode.toLower = fun c : Char => c != mark := by
  funext c
  rw [Function.comp_apply, Bool.eq_iff_iff, bne_iff_ne, bne_iff_ne]
  exact not_congr (UnicodeFolding.mark c mark listed)

theorem isAddressPart_lower (part : List Char) : isAddressPart (part.map Unicode.toLower) = isAddressPart part := by
  rw [Bool.eq_iff_iff, isAddressPart_iff, isAddressPart_iff, List.forall_mem_map]
  apply forall₂_congr
  intro c _
  rw [UnicodeFolding.space c, ne_eq, ne_eq, ne_eq, UnicodeFolding.mark c '/' (by decide), UnicodeFolding.mark c '@' (by decide),
    UnicodeFolding.mark c ',' (by decide)]

def loweredAddress (address : WaAddress) : WaAddress := ⟨toLower address.user, toLower address.server⟩

/-- Folding the case of a string folds that of the address it is. -/
theorem parseAddress_toLower (raw : String) : parseAddress (toLower raw) = (parseAddress raw).map loweredAddress := by
  have letters : (toLower (goTrimSpace raw)).toList = (goTrimSpace raw).toList.map Unicode.toLower := String.toList_ofList
  have at_ := @toLower_ne_mark _ _ '@' (by decide)
  have colon := @toLower_ne_mark _ _ ':' (by decide)
  have found : '@' ∈ (goTrimSpace raw).toList.map Unicode.toLower ↔ '@' ∈ (goTrimSpace raw).toList := by
    simp [UnicodeFolding.mark _ '@' (by decide)]
  rw [parseAddress, parseAddress, goTrimSpace_toLower, letters]
  simp only [found, List.takeWhile_map, List.dropWhile_map, at_, colon, ← List.map_tail, List.isEmpty_map, isAddressPart_lower]
  split
  · split
    · rfl
    · simp [loweredAddress, toLower]
  · rfl

theorem parseAddress_normalize (raw : String) : parseAddress (normalizeAddress raw) = parseAddress raw := by
  unfold normalizeAddress
  cases parsed : parseAddress raw with
  | some address => exact parseAddress_render (parseAddress_wellFormed parsed)
  | none => rw [parseAddress_toLower, parseAddress_goTrimSpace, parsed, Option.map_none]

theorem normalizeAddress_normalize (raw : String) : normalizeAddress (normalizeAddress raw) = normalizeAddress raw := by
  cases parsed : parseAddress raw with
  | some address =>
    have again := parseAddress_normalize raw
    rw [parsed] at again
    rw [normalizeAddress, again, normalizeAddress, parsed]
  | none =>
    have again := parseAddress_normalize raw
    rw [parsed] at again
    have once : normalizeAddress raw = toLower (goTrimSpace raw) := by rw [normalizeAddress, parsed]
    have twice : goTrimSpace (goTrimSpace raw) = goTrimSpace raw := trimChars_trimChars isGoSpace raw
    rw [normalizeAddress, again, once, goTrimSpace_toLower, twice, toLower_toLower]

end

/-! ### Blank addresses -/

theorem parseAddress_some {raw : String} {address : WaAddress} (parsed : parseAddress raw = some address) :
    goTrimSpace raw ≠ "" := by
  intro blank
  unfold parseAddress at parsed
  rw [blank] at parsed
  cases parsed

theorem render_ne_empty (address : WaAddress) : address.render ≠ "" := by
  intro blank
  have mark : '@' ∈ address.render.toList := by
    rw [WaAddress.render, String.toList_append, String.toList_append]
    exact List.mem_append_left _ (List.mem_append_right _ (by decide))
  rw [blank] at mark
  cases mark

section
variable [Unicode]

theorem toLower_eq_empty {s : String} : toLower s = "" ↔ s = "" := by
  rw [toLower, ← String.toList_inj, String.toList_ofList, ← String.toList_inj]
  exact List.map_eq_nil_iff

theorem normalizeAddress_eq_empty {raw : String} : normalizeAddress raw = "" ↔ goTrimSpace raw = "" := by
  unfold normalizeAddress
  cases parsed : parseAddress raw with
  | some address => exact iff_of_false (render_ne_empty address) (parseAddress_some parsed)
  | none => exact toLower_eq_empty

theorem sameAccount_iff {one other : String} :
    sameAccount one other = true ↔ goTrimSpace one ≠ "" ∧ normalizeAddress one = normalizeAddress other := by
  simp [sameAccount, normalizeAddress_eq_empty]

theorem sameAccount_comm (one other : String) : sameAccount one other = sameAccount other one := by
  rw [Bool.eq_iff_iff, sameAccount_iff, sameAccount_iff, ne_eq, ne_eq, ← normalizeAddress_eq_empty, ← normalizeAddress_eq_empty]
  constructor
  · rintro ⟨some_, same⟩
    exact ⟨same ▸ some_, same.symm⟩
  · rintro ⟨some_, same⟩
    exact ⟨same ▸ some_, same.symm⟩

theorem sameAccount_trans {one other third : String} (first : sameAccount one other = true)
    (second : sameAccount other third = true) : sameAccount one third = true := by
  rw [sameAccount_iff] at *
  exact ⟨first.1, first.2.trans second.2⟩

theorem sameAccount_self {raw : String} (some_ : goTrimSpace raw ≠ "") : sameAccount raw raw = true :=
  sameAccount_iff.mpr ⟨some_, rfl⟩

theorem sameAccount_blank {one other : String} (blank : goTrimSpace one = "" ∨ goTrimSpace other = "") :
    sameAccount one other = false := by
  rcases blank with blank | blank
  · rw [Bool.eq_false_iff, ne_eq, sameAccount_iff]
    exact fun same => same.1 blank
  · rw [sameAccount_comm, Bool.eq_false_iff, ne_eq, sameAccount_iff]
    exact fun same => same.1 blank

/-- Of two addresses nothing but the parts counts, letter by letter. -/
theorem sameAccount_parsed {one other : String} {x y : WaAddress} (parsedOne : parseAddress one = some x)
    (parsedOther : parseAddress other = some y) : sameAccount one other = true ↔ x = y := by
  rw [sameAccount_iff, normalizeAddress, normalizeAddress, parsedOne, parsedOther]
  constructor
  · rintro ⟨-, same⟩
    exact render_inj (parseAddress_wellFormed parsedOne) (parseAddress_wellFormed parsedOther) same
  · rintro rfl
    exact ⟨parseAddress_some parsedOne, rfl⟩

/-! ### The comparison -/

/-- The phone server under either of its names. -/
def phoneServer (server : String) : String := if server = "c.us" then "s.whatsapp.net" else server

/-- The account an address names, whatever its letter case and its name for the phone server. -/
def accountOf (address : WaAddress) : WaAddress := ⟨toLower address.user, phoneServer (toLower address.server)⟩

/-- Two strings that differ in surrounding space and letter case at most and, where they are addresses, in a
device suffix or the name of the phone server. -/
inductive Respelled (one other : String) : Prop where
  | address {x y : WaAddress} (parsedOne : parseAddress one = some x) (parsedOther : parseAddress other = some y)
      (account : accountOf x = accountOf y)
  | text (unparsedOne : parseAddress one = none) (unparsedOther : parseAddress other = none)
      (folded : toLower (goTrimSpace one) = toLower (goTrimSpace other))

/-- What a comparison of accounts promises two strings. -/
structure Compared (one other : String) : Prop where
  normal : normalizeAddress (normalizeAddress one) = normalizeAddress one
  symmetric : sameAccount one other = sameAccount other one
  transitive : ∀ third, sameAccount one other = true → sameAccount other third = true → sameAccount one third = true
  reflexive : goTrimSpace one ≠ "" → sameAccount one one = true
  blank : goTrimSpace one = "" ∨ goTrimSpace other = "" → sameAccount one other = false
  respelled : Respelled one other → goTrimSpace one ≠ "" → sameAccount one other = true
  users : ∀ x y, parseAddress one = some x → parseAddress other = some y → toLower x.user ≠ toLower y.user →
    sameAccount one other = false

/-- The letters of two addresses of one account are the same. -/
def SpelledAlike (one other : String) : Prop :=
  ∀ x y, parseAddress one = some x → parseAddress other = some y → accountOf x = accountOf y → x = y

/-- All of it holds but where two addresses of one account are written in different letters: letter case is
folded, and the second name of the phone server is known, in no string that parses. -/
theorem compared_iff [UnicodeFolding] (one other : String) : Compared one other ↔ SpelledAlike one other := by
  constructor
  · intro compared x y parsedOne parsedOther account
    apply (sameAccount_parsed parsedOne parsedOther).mp
    exact compared.respelled (.address parsedOne parsedOther account) (parseAddress_some parsedOne)
  · intro alike
    refine ⟨normalizeAddress_normalize one, sameAccount_comm one other, fun third => sameAccount_trans,
      sameAccount_self, sameAccount_blank, ?_, ?_⟩
    · intro respelled some_
      cases respelled with
      | address parsedOne parsedOther account =>
        exact (sameAccount_parsed parsedOne parsedOther).mpr (alike _ _ parsedOne parsedOther account)
      | text unparsedOne unparsedOther folded =>
        rw [sameAccount_iff, normalizeAddress, normalizeAddress, unparsedOne, unparsedOther]
        exact ⟨some_, folded⟩
    · intro x y parsedOne parsedOther different
      rw [Bool.eq_false_iff, ne_eq, sameAccount_parsed parsedOne parsedOther]
      rintro rfl
      exact different rfl

end

theorem toLower_ascii (c : Char) : c.toLower = c ∨ ∃ n < 26, c = Char.ofNat (65 + n) := by
  unfold Char.toLower
  split
  · rename_i upper
    right
    have low : 65 ≤ c.toNat := UInt32.le_iff_toNat_le.mp upper.1
    have high : c.toNat ≤ 90 := UInt32.le_iff_toNat_le.mp upper.2
    refine ⟨c.toNat - 65, by omega, ?_⟩
    rw [Nat.add_sub_of_le low, Char.ofNat_toNat]
  · exact Or.inl rfl

theorem asciiFolding : @UnicodeFolding Unicode.ascii := by
  refine @UnicodeFolding.mk Unicode.ascii ?_ ?_ ?_
  · intro c
    rcases toLower_ascii c with same | ⟨n, small, rfl⟩
    · exact congrArg Char.toLower same
    · revert n
      decide
  · intro c
    rcases toLower_ascii c with same | ⟨n, small, rfl⟩
    · exact congrArg isGoSpace same
    · revert n
      decide
  · intro c
    rcases toLower_ascii c with same | ⟨n, small, rfl⟩
    · intro mark _
      exact Iff.of_eq (congrArg (· = mark) same)
    · apply forall_mem_of_all
      revert n
      decide

/-- A session's address and its account's. -/
theorem compared_device : @Compared Unicode.ascii " 62811:12@s.whatsapp.net" "62811@s.whatsapp.net" := by
  apply (@compared_iff Unicode.ascii asciiFolding _ _).mpr
  intro x y parsedOne parsedOther _
  have one : parseAddress " 62811:12@s.whatsapp.net" = some ⟨"62811", "s.whatsapp.net"⟩ := by decide +kernel
  have other : parseAddress "62811@s.whatsapp.net" = some ⟨"62811", "s.whatsapp.net"⟩ := by decide +kernel
  exact Option.some.inj ((parsedOne.symm.trans one).trans (other.symm.trans parsedOther))

theorem phone_servers_differ : ¬ @Compared Unicode.ascii "62811@c.us" "62811@s.whatsapp.net" := by
  intro compared
  have one : parseAddress "62811@c.us" = some ⟨"62811", "c.us"⟩ := by decide +kernel
  have other : parseAddress "62811@s.whatsapp.net" = some ⟨"62811", "s.whatsapp.net"⟩ := by decide +kernel
  have account : @accountOf Unicode.ascii ⟨"62811", "c.us"⟩ = @accountOf Unicode.ascii ⟨"62811", "s.whatsapp.net"⟩ := by
    decide +kernel
  have respelled := @Respelled.address Unicode.ascii _ _ _ _ one other account
  have same := @Compared.respelled Unicode.ascii _ _ compared respelled (parseAddress_some one)
  have letters := (@sameAccount_parsed Unicode.ascii _ _ _ _ one other).mp same
  exact absurd letters (by decide)

end GroupButler.Groups
