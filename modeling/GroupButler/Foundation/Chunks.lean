import GroupButler.Foundation.Utf8

/-!
# A UTF-8 text decoded chunk by chunk

Chunks of an encoded text that are decoded one at a time give the text back, except that a character with
a chunk boundary inside it becomes replacement characters. ASCII never has a boundary inside it.
-/

namespace GroupButler.Foundation

/-! ### Boundaries -/

/-- The positions at which the chunks end. -/
def cutOffsets : Nat → List (List Nat) → List Nat
  | _, [] => []
  | start, chunk :: chunks => (start + chunk.length) :: cutOffsets (start + chunk.length) chunks

/-- Each character of a text, and whether a cut falls inside its encoding. -/
def tagSplit (cuts : List Nat) : Nat → List Char → List (Char × Bool)
  | _, [] => []
  | start, c :: cs =>
    (c, cuts.any fun cut => start < cut && cut < start + (utf8Bytes c).length) ::
      tagSplit cuts (start + (utf8Bytes c).length) cs

theorem map_fst_tagSplit (cuts : List Nat) (start : Nat) (cs : List Char) : (tagSplit cuts start cs).map Prod.fst = cs := by
  induction cs generalizing start with
  | nil => rfl
  | cons c cs ih => rw [tagSplit, List.map_cons, ih]

theorem cutOffsets_ge {start : Nat} {chunks : List (List Nat)} : ∀ cut ∈ cutOffsets start chunks, start ≤ cut := by
  induction chunks generalizing start with
  | nil => exact fun _ member => absurd member List.not_mem_nil
  | cons chunk chunks ih =>
    intro cut member
    rcases List.mem_cons.mp member with rfl | member
    · omega
    · have later := ih cut member
      omega

/-- A text and what is left of it where its split characters are replaced. -/
inductive Garbled : List (Char × Bool) → List Char → Prop where
  | nil : Garbled [] []
  | kept (c : Char) {text : List (Char × Bool)} {out : List Char} : Garbled text out → Garbled ((c, false) :: text) (c :: out)
  | broken (c : Char) (n : Nat) {text : List (Char × Bool)} {out : List Char} : 128 ≤ c.toNat → Garbled text out →
      Garbled ((c, true) :: text) (List.replicate (n + 1) '\uFFFD' ++ out)

/-! ### Decoding -/

/-- `chunk.toString()` for each chunk, joined. -/
def decodeChunks (chunks : List (List Nat)) : List Char := chunks.flatMap (ofUtf8 none)

@[simp] theorem decodeChunks_nil : decodeChunks [] = [] := rfl

theorem decodeChunks_cons (chunk : List Nat) (chunks : List (List Nat)) :
    decodeChunks (chunk :: chunks) = ofUtf8 none chunk ++ decodeChunks chunks := List.flatMap_cons

def Continuation (byte : Nat) : Prop := 0x80 ≤ byte ∧ byte ≤ 0xBF

/-- A continuation byte on its own is one replacement character. -/
theorem ofUtf8_stray {byte : Nat} (stray : Continuation byte) (bytes : List Nat) :
    ofUtf8 none (byte :: bytes) = '\uFFFD' :: ofUtf8 none bytes := by
  have lead : leadByte byte = .refused := by
    obtain ⟨low, high⟩ := stray
    rw [leadByte, if_neg (by omega), if_neg (by omega), if_neg (by omega), if_neg (by omega)]
  rw [ofUtf8]
  simp only [lead]

theorem ofUtf8_strays {strays : List Nat} (stray : ∀ byte ∈ strays, Continuation byte) (bytes : List Nat) :
    ofUtf8 none (strays ++ bytes) = List.replicate strays.length '\uFFFD' ++ ofUtf8 none bytes := by
  induction strays with
  | nil => rfl
  | cons byte strays ih =>
    rw [List.cons_append, ofUtf8_stray (stray byte List.mem_cons_self),
      ih fun other member => stray other (List.mem_cons_of_mem _ member)]
    rfl

/-- After its first byte a character has continuation bytes only. -/
theorem utf8Bytes_tail (c : Char) : ∀ byte ∈ (utf8Bytes c).tail, Continuation byte := by
  have valid := char_not_surrogate c
  intro byte member
  unfold utf8Bytes at member
  dsimp only at member
  unfold Continuation
  repeat' split at member
  all_goals
    simp only [List.tail_cons, List.mem_cons, List.not_mem_nil, or_false] at member
    try omega

/-- A character of several bytes opens a sequence that its other bytes carry on. -/
theorem utf8Bytes_opens {c : Char} (large : 128 ≤ c.toNat) :
    ∃ lead tail pending, utf8Bytes c = lead :: tail ∧ leadByte lead = .opens pending ∧ pending.owed = tail.length ∧
      ∀ byte ∈ tail.head?, pending.low ≤ byte ∧ byte ≤ pending.high := by
  have valid := char_not_surrogate c
  unfold utf8Bytes
  dsimp only
  rw [if_neg (by omega)]
  split
  · refine ⟨_, _, ⟨1, 0x80, 0xBF, c.toNat / 0x40⟩, rfl, ?_, rfl, ?_⟩
    · rw [leadByte, if_neg (by omega), if_pos (by omega), Nat.add_sub_cancel_left]
    · rintro byte ⟨⟩
      dsimp only
      omega
  · split
    · refine ⟨_, _, ⟨2, if 0xE0 + c.toNat / 0x1000 = 0xE0 then 0xA0 else 0x80,
        if 0xE0 + c.toNat / 0x1000 = 0xED then 0x9F else 0xBF, c.toNat / 0x1000⟩, rfl, ?_, rfl, ?_⟩
      · rw [leadByte, if_neg (by omega), if_neg (by omega), if_pos (by omega), Nat.add_sub_cancel_left]
      · rintro byte ⟨⟩
        dsimp only
        constructor <;> split <;> omega
    · refine ⟨_, _, ⟨3, if 0xF0 + c.toNat / 0x40000 = 0xF0 then 0x90 else 0x80,
        if 0xF0 + c.toNat / 0x40000 = 0xF4 then 0x8F else 0xBF, c.toNat / 0x40000⟩, rfl, ?_, rfl, ?_⟩
      · rw [leadByte, if_neg (by omega), if_neg (by omega), if_neg (by omega), if_pos (by omega), Nat.add_sub_cancel_left]
      · rintro byte ⟨⟩
        dsimp only
        constructor <;> split <;> omega

/-- A sequence that breaks off is one replacement character. -/
theorem ofUtf8_pending {pending : Pending} {bytes : List Nat} (short : bytes.length < pending.owed)
    (first : ∀ byte ∈ bytes.head?, pending.low ≤ byte ∧ byte ≤ pending.high) (rest : ∀ byte ∈ bytes.tail, Continuation byte) :
    ofUtf8 (some pending) bytes = ['\uFFFD'] := by
  induction bytes generalizing pending with
  | nil => rfl
  | cons byte bytes ih =>
    obtain ⟨low, high⟩ := first byte rfl
    rw [List.length_cons] at short
    rw [ofUtf8_more low high (by omega)]
    refine ih (by dsimp only; omega) (fun next found => ?_) fun other member => rest other (List.mem_of_mem_tail member)
    exact rest next (List.mem_of_mem_head? found)

theorem ofUtf8_front {c : Char} {front back : List Nat} (split : utf8Bytes c = front ++ back) (some : front ≠ [])
    (more : back ≠ []) : ofUtf8 none front = ['\uFFFD'] ∧ 128 ≤ c.toNat := by
  have long : 128 ≤ c.toNat := by
    by_contra small
    have one : utf8Bytes c = [c.toNat] := if_pos (by omega)
    have lengths := congrArg List.length split
    rw [one, List.length_append] at lengths
    have := List.length_pos_of_ne_nil some
    have := List.length_pos_of_ne_nil more
    simp only [List.length_singleton] at lengths
    omega
  refine ⟨?_, long⟩
  have tails := utf8Bytes_tail c
  obtain ⟨lead, tail, pending, bytes, opens, owed, range⟩ := utf8Bytes_opens long
  obtain ⟨byte, front, rfl⟩ := List.exists_cons_of_ne_nil some
  rw [bytes, List.cons_append] at split
  rw [bytes, List.tail_cons] at tails
  obtain ⟨rfl, rfl⟩ := List.cons.inj split
  rw [ofUtf8_opens opens]
  refine ofUtf8_pending ?_ (fun next found => range next ?_) fun other member => tails other ?_
  · rw [owed, List.length_append]
    have := List.length_pos_of_ne_nil more
    omega
  · exact List.mem_head?_append_of_mem_head? found
  · exact List.mem_append_left _ (List.mem_of_mem_tail member)

/-! ### One character -/

/-- Continuation bytes in front of a text, wherever the chunks end. -/
theorem decodeChunks_strays {strays rest : List Nat} (stray : ∀ byte ∈ strays, Continuation byte) {start : Nat}
    {chunks : List (List Nat)} (whole : chunks.flatten = strays ++ rest) :
    ∃ before chunks', chunks'.flatten = rest ∧ (∀ cut ∈ before, cut ≤ start + strays.length) ∧
      cutOffsets start chunks = before ++ cutOffsets (start + strays.length) chunks' ∧
      decodeChunks chunks = List.replicate strays.length '\uFFFD' ++ decodeChunks chunks' := by
  induction chunks generalizing strays start with
  | nil =>
    obtain ⟨rfl, rfl⟩ := List.append_eq_nil_iff.mp whole.symm
    exact ⟨[], [], rfl, fun _ member => absurd member List.not_mem_nil, rfl, rfl⟩
  | cons chunk chunks ih =>
    rw [List.flatten_cons] at whole
    rcases List.append_eq_append_iff.mp whole with ⟨back, rfl, tail⟩ | ⟨back, rfl, tail⟩
    · -- the chunk ends among the continuation bytes
      obtain ⟨before, chunks', rest', low, cuts, decoded⟩ :=
        @ih back (fun byte member => stray byte (List.mem_append_right _ member)) (start + chunk.length) tail
      refine ⟨(start + chunk.length) :: before, chunks', rest', ?_, ?_, ?_⟩
      · intro cut member
        rw [List.length_append]
        rcases List.mem_cons.mp member with rfl | member
        · omega
        · have := low cut member
          omega
      · rw [cutOffsets, cuts, List.length_append, Nat.add_assoc]
        rfl
      · have own := @ofUtf8_strays chunk (fun byte member => stray byte (List.mem_append_left _ member)) []
        rw [List.append_nil, ofUtf8, List.append_nil] at own
        rw [decodeChunks_cons, own, decoded, List.length_append, ← List.append_assoc, List.replicate_append_replicate]
    · refine ⟨[], back :: chunks, ?_, fun _ member => absurd member List.not_mem_nil, ?_, ?_⟩
      · rw [List.flatten_cons, tail]
      · rw [cutOffsets, cutOffsets, List.length_append, Nat.add_assoc]
        rfl
      · rw [decodeChunks_cons, ofUtf8_strays stray, decodeChunks_cons, List.append_assoc]

/-- One character in front of a text: kept when no chunk ends inside it, replaced when one does. -/
theorem decodeChunks_char (c : Char) {rest : List Nat} {start : Nat} {chunks : List (List Nat)}
    (whole : chunks.flatten = utf8Bytes c ++ rest) :
    ∃ before chunks', chunks'.flatten = rest ∧ (∀ cut ∈ before, cut ≤ start + (utf8Bytes c).length) ∧
      cutOffsets start chunks = before ++ cutOffsets (start + (utf8Bytes c).length) chunks' ∧
      ((∀ cut ∈ before, cut ≤ start) ∧ decodeChunks chunks = c :: decodeChunks chunks' ∨
        128 ≤ c.toNat ∧ (∃ cut ∈ before, start < cut ∧ cut < start + (utf8Bytes c).length) ∧
          ∃ n, decodeChunks chunks = List.replicate (n + 1) '\uFFFD' ++ decodeChunks chunks') := by
  have some := utf8Bytes_ne_nil c
  induction chunks with
  | nil =>
    exact absurd (List.append_eq_nil_iff.mp whole.symm).1 some
  | cons chunk chunks ih =>
    rw [List.flatten_cons] at whole
    by_cases empty : chunk = []
    · subst empty
      obtain ⟨before, chunks', rest', low, cuts, decoded⟩ := ih whole
      refine ⟨start :: before, chunks', rest', ?_, ?_, ?_⟩
      · intro cut member
        rcases List.mem_cons.mp member with rfl | member
        · omega
        · exact low cut member
      · rw [cutOffsets, List.length_nil, Nat.add_zero, cuts]
        rfl
      · have gone : decodeChunks ([] :: chunks) = decodeChunks chunks := rfl
        rw [gone]
        rcases decoded with ⟨early, kept⟩ | ⟨large, ⟨cut, member, inside⟩, broken⟩
        · refine Or.inl ⟨fun cut member => ?_, kept⟩
          rcases List.mem_cons.mp member with rfl | member
          · exact Nat.le_refl _
          · exact early cut member
        · exact Or.inr ⟨large, ⟨cut, List.mem_cons_of_mem _ member, inside⟩, broken⟩
    · have covered : ∀ back, chunk = utf8Bytes c ++ back → rest = back ++ chunks.flatten →
          ∃ before chunks', chunks'.flatten = rest ∧ (∀ cut ∈ before, cut ≤ start + (utf8Bytes c).length) ∧
            cutOffsets start (chunk :: chunks) = before ++ cutOffsets (start + (utf8Bytes c).length) chunks' ∧
            ((∀ cut ∈ before, cut ≤ start) ∧ decodeChunks (chunk :: chunks) = c :: decodeChunks chunks' ∨
              128 ≤ c.toNat ∧ (∃ cut ∈ before, start < cut ∧ cut < start + (utf8Bytes c).length) ∧
                ∃ n, decodeChunks (chunk :: chunks) = List.replicate (n + 1) '\uFFFD' ++ decodeChunks chunks') := by
        rintro back rfl rfl
        refine ⟨[], back :: chunks, rfl, fun _ member => absurd member List.not_mem_nil, ?_,
          Or.inl ⟨fun _ member => absurd member List.not_mem_nil, ?_⟩⟩
        · rw [cutOffsets, cutOffsets, List.length_append, Nat.add_assoc]
          rfl
        · rw [decodeChunks_cons, ofUtf8_utf8Bytes, decodeChunks_cons]
          rfl
      rcases List.append_eq_append_iff.mp whole with ⟨back, bytes, tail⟩ | ⟨back, bytes, tail⟩
      · by_cases ends : back = []
        · subst ends
          rw [List.append_nil] at bytes
          exact covered [] (by rw [List.append_nil, bytes]) tail.symm
        · -- the chunk ends inside the character
          obtain ⟨front, large⟩ := ofUtf8_front bytes empty ends
          have lengths := congrArg List.length bytes
          rw [List.length_append] at lengths
          have here := List.length_pos_of_ne_nil empty
          have more := List.length_pos_of_ne_nil ends
          have strays : ∀ byte ∈ back, Continuation byte := by
            intro byte member
            refine utf8Bytes_tail c byte ?_
            obtain ⟨first, chunk, rfl⟩ := List.exists_cons_of_ne_nil empty
            rw [bytes]
            exact List.mem_append_right _ member
          obtain ⟨before, chunks', rest', low, cuts, decoded⟩ := @decodeChunks_strays back rest strays (start + chunk.length) chunks tail
          have place : start + chunk.length + back.length = start + (utf8Bytes c).length := by omega
          rw [place] at low cuts
          refine ⟨(start + chunk.length) :: before, chunks', rest', ?_, ?_, Or.inr ⟨large, ?_, back.length, ?_⟩⟩
          · intro cut member
            rcases List.mem_cons.mp member with rfl | member
            · omega
            · exact low cut member
          · rw [cutOffsets, cuts]
            rfl
          · exact ⟨_, List.mem_cons_self, by omega, by omega⟩
          · rw [decodeChunks_cons, front, decoded]
            rfl
      · exact covered back bytes tail

/-- A text decoded chunk by chunk is the text with its split characters replaced. -/
theorem garbled_decodeChunks {cs : List Char} {start : Nat} {before : List Nat} {chunks : List (List Nat)}
    (low : ∀ cut ∈ before, cut ≤ start) (whole : chunks.flatten = toUtf8 cs) :
    Garbled (tagSplit (before ++ cutOffsets start chunks) start cs) (decodeChunks chunks) := by
  induction cs generalizing start before chunks with
  | nil =>
    have empty : ∀ chunk ∈ chunks, chunk = [] := List.flatten_eq_nil_iff.mp whole
    have nothing : decodeChunks chunks = [] := by
      refine List.flatMap_eq_nil_iff.mpr fun chunk member => ?_
      rw [empty chunk member, ofUtf8]
    rw [nothing]
    exact Garbled.nil
  | cons c cs ih =>
    rw [toUtf8, List.flatMap_cons] at whole
    obtain ⟨more, chunks', rest', inside, cuts, decoded⟩ := @decodeChunks_char c _ start _ whole
    have tail := @ih (start + (utf8Bytes c).length) (before ++ more) chunks' ?_ rest'
    · rw [List.append_assoc, ← cuts] at tail
      rw [tagSplit]
      rcases decoded with ⟨early, kept⟩ | ⟨large, ⟨cut, member, low', high⟩, n, broken⟩
      · have uncut : ((before ++ cutOffsets start chunks).any fun cut =>
            start < cut && cut < start + (utf8Bytes c).length) = false := by
          rw [List.any_eq_false]
          intro cut member
          rw [cuts] at member
          simp only [Bool.and_eq_true, decide_eq_true_eq, not_and, not_lt]
          intro past
          rcases List.mem_append.mp member with member | member
          · have := low cut member
            omega
          · rcases List.mem_append.mp member with member | member
            · have := early cut member
              omega
            · exact cutOffsets_ge cut member
        rw [uncut, kept]
        exact Garbled.kept c tail
      · have cutInside : ((before ++ cutOffsets start chunks).any fun cut =>
            start < cut && cut < start + (utf8Bytes c).length) = true := by
          rw [List.any_eq_true]
          refine ⟨cut, ?_, by simp [low', high]⟩
          rw [cuts]
          exact List.mem_append_right _ (List.mem_append_left _ member)
        rw [cutInside, broken]
        exact Garbled.broken c n large tail
    · intro cut member
      rcases List.mem_append.mp member with member | member
      · have := low cut member
        omega
      · exact inside cut member

/-! ### What is left of a text -/

/-- Words of ASCII, which no split character can be part of. -/
def Ascii (needle : List Char) : Prop := ∀ c ∈ needle, c.toNat < 128

instance (needle : List Char) : Decidable (Ascii needle) :=
  decidable_of_decidable_of_iff (p := (needle.all fun c => decide (c.toNat < 128)) = true) (by simp [Ascii])

theorem garbled_append {text more : List (Char × Bool)} {out rest : List Char} (first : Garbled text out)
    (second : Garbled more rest) : Garbled (text ++ more) (out ++ rest) := by
  induction first with
  | nil => exact second
  | kept c _ ih => exact Garbled.kept c ih
  | broken c n large _ ih =>
    rw [List.append_assoc]
    exact Garbled.broken c n large ih

theorem garbled_whole (cs : List Char) : Garbled (cs.map (·, false)) cs := by
  induction cs with
  | nil => exact Garbled.nil
  | cons c cs ih => exact Garbled.kept c ih

theorem map_fst_whole (cs : List Char) : (cs.map (·, false)).map Prod.fst = cs := by simp [Function.comp_def]

theorem replacement_large : 128 ≤ '\uFFFD'.toNat := by decide

/-- An ASCII word starts the text just when it starts what is left of it. -/
theorem isPrefixOf_garbled {text : List (Char × Bool)} {out needle : List Char} (garbled : Garbled text out)
    (ascii : Ascii needle) : needle.isPrefixOf (text.map Prod.fst) = needle.isPrefixOf out := by
  induction garbled generalizing needle with
  | nil => rfl
  | kept c _ ih =>
    cases needle with
    | nil => rfl
    | cons d needle =>
      rw [List.map_cons, List.isPrefixOf_cons_cons, List.isPrefixOf_cons_cons,
        ih fun e member => ascii e (List.mem_cons_of_mem _ member)]
  | broken c n large _ ih =>
    cases needle with
    | nil => rfl
    | cons d needle =>
      have small := ascii d List.mem_cons_self
      have other : ∀ e : Char, 128 ≤ e.toNat → (d == e) = false := by
        intro e above
        rw [beq_eq_false_iff_ne]
        rintro rfl
        omega
      rw [List.map_cons, List.isPrefixOf_cons_cons, other c large, List.replicate_succ, List.cons_append,
        List.isPrefixOf_cons_cons, other _ replacement_large]
      rfl

theorem drop_garbled {text : List (Char × Bool)} {out needle : List Char} (garbled : Garbled text out)
    (ascii : Ascii needle) (starts : needle.isPrefixOf out = true) :
    Garbled (text.drop needle.length) (out.drop needle.length) := by
  induction needle generalizing text out with
  | nil => exact garbled
  | cons d needle ih =>
    cases garbled with
    | nil => exact Garbled.nil
    | kept c rest =>
      rw [List.isPrefixOf_cons_cons, Bool.and_eq_true] at starts
      exact ih rest (fun e member => ascii e (List.mem_cons_of_mem _ member)) starts.2
    | broken c n large rest =>
      rw [List.replicate_succ, List.cons_append, List.isPrefixOf_cons_cons, Bool.and_eq_true, beq_iff_eq] at starts
      have small := ascii d List.mem_cons_self
      rw [starts.1] at small
      exact absurd small (by decide)

theorem reverse_garbled {text : List (Char × Bool)} {out : List Char} (garbled : Garbled text out) :
    Garbled text.reverse out.reverse := by
  induction garbled with
  | nil => exact Garbled.nil
  | kept c _ ih =>
    rw [List.reverse_cons, List.reverse_cons]
    exact garbled_append ih (Garbled.kept c Garbled.nil)
  | broken c n large _ ih =>
    rw [List.reverse_cons, List.reverse_append, List.reverse_replicate]
    have last := Garbled.broken c n large Garbled.nil
    rw [List.append_nil] at last
    exact garbled_append ih last

end GroupButler.Foundation
