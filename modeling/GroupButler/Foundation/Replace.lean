import Mathlib.Data.List.Basic
import Mathlib.Data.List.TakeWhile

/-!
# Global replacements

One pass over a text that replaces what a matcher matches, from the left. A text that spells references is a
list of tokens, plain elements and references; a pass decodes the references it is meant for, and whatever the
plain elements happen to spell.
-/

namespace GroupButler.Foundation

universe u
variable {α : Type u}

/-- What is written instead of the match at the front of a text, and how many elements the match has after its first. -/
abbrev Matcher (α : Type u) := List α → Option (List α × Nat)

/-- The first argument counts the elements of the last match still to pass. -/
def replaceEach (m : Matcher α) : Nat → List α → List α
  | _, [] => []
  | skip + 1, _ :: cs => replaceEach m skip cs
  | 0, c :: cs =>
    match m (c :: cs) with
    | some (written, more) => written ++ replaceEach m more cs
    | none => c :: replaceEach m 0 cs

variable {m : Matcher α}

theorem replaceEach_skip (skip : Nat) (cs : List α) : replaceEach m skip cs = replaceEach m 0 (cs.drop skip) := by
  induction skip generalizing cs with
  | zero => rfl
  | succ skip ih =>
    cases cs with
    | nil => simp [replaceEach]
    | cons c cs => rw [replaceEach, ih, List.drop_succ_cons]

theorem replaceEach_none {c : α} {cs : List α} (none : m (c :: cs) = none) : replaceEach m 0 (c :: cs) = c :: replaceEach m 0 cs := by
  rw [replaceEach, none]

theorem replaceEach_some {c : α} {cs written : List α} {more : Nat} (found : m (c :: cs) = some (written, more)) :
    replaceEach m 0 (c :: cs) = written ++ replaceEach m 0 (cs.drop more) := by
  rw [replaceEach, found, ← replaceEach_skip]

/-- A match starts with this element. -/
def StartsWith (mark : α) (m : Matcher α) : Prop := ∀ c cs, c ≠ mark → m (c :: cs) = none

theorem replaceEach_free {mark : α} (starts : StartsWith mark m) {front : List α} (free : mark ∉ front) (rest : List α) :
    replaceEach m 0 (front ++ rest) = front ++ replaceEach m 0 rest := by
  induction front with
  | nil => rfl
  | cons c front ih =>
    have other : c ≠ mark := fun same => free (same ▸ List.mem_cons_self)
    rw [List.cons_append, replaceEach_none (starts c _ other), ih fun held => free (List.mem_cons_of_mem _ held)]
    rfl

/-! ### Tokens -/

inductive Token (α : Type u) where
  | plain (c : α)
  /-- A text that stands for an element. -/
  | reference (text : List α) (c : α)

def Token.chars : Token α → List α
  | .plain c => [c]
  | .reference text _ => text

def Token.value : Token α → α
  | .plain c => c
  | .reference _ c => c

/-- The plain elements in front. -/
def plainRun : List (Token α) → List α
  | .plain c :: ts => c :: plainRun ts
  | _ => []

/-- Matches start with the mark, do not reach the next one and write one element at most. -/
structure Decoder (mark : α) (m : Matcher α) : Prop where
  starts : StartsWith mark m
  more : ∀ {c cs written more}, m (c :: cs) = some (written, more) → 0 < more ∧ more ≤ cs.length ∧ written.length ≤ 1
  front : ∀ c cs rest, m (c :: cs ++ mark :: rest) = m (c :: cs)

/-- The references of a text start with the mark and hold no other; the decoder matches its targets, and no other. -/
def Refers (mark : α) (m : Matcher α) (target : List α → Bool) (ts : List (Token α)) : Prop :=
  ∀ text c, .reference text c ∈ ts → (∃ body, text = mark :: body ∧ mark ∉ body) ∧
    ∀ rest, m (text ++ rest) = if target text then some ([c], text.length - 1) else none

def Token.decode (target : List α → Bool) : Token α → Token α
  | .plain c => .plain c
  | .reference text c => if target text then .plain c else .reference text c

/-- The pass, token by token. -/
def replaceTokens (m : Matcher α) (target : List α → Bool) : Nat → List (Token α) → List (Token α)
  | _, [] => []
  | skip + 1, _ :: ts => replaceTokens m target skip ts
  | 0, .reference text c :: ts => (Token.reference text c).decode target :: replaceTokens m target 0 ts
  | 0, .plain c :: ts =>
    match m (plainRun (.plain c :: ts)) with
    | some (written, more) => written.map .plain ++ replaceTokens m target more ts
    | none => .plain c :: replaceTokens m target 0 ts

variable {mark : α} {target : List α → Bool} {ts : List (Token α)}

theorem replaceTokens_skip (skip : Nat) (ts : List (Token α)) :
    replaceTokens m target skip ts = replaceTokens m target 0 (ts.drop skip) := by
  induction skip generalizing ts with
  | zero => rfl
  | succ skip ih =>
    cases ts with
    | nil => simp [replaceTokens]
    | cons t ts => rw [replaceTokens, ih, List.drop_succ_cons]

theorem length_plainRun (ts : List (Token α)) : (plainRun ts).length ≤ ts.length := by
  induction ts with
  | nil => exact Nat.le_refl _
  | cons t ts ih =>
    cases t with
    | plain c => exact Nat.succ_le_succ ih
    | reference text c => exact Nat.zero_le _

theorem Refers.tail {t : Token α} (refers : Refers mark m target (t :: ts)) : Refers mark m target ts :=
  fun text c member => refers text c (List.mem_cons_of_mem _ member)

theorem Refers.drop (refers : Refers mark m target ts) (n : Nat) : Refers mark m target (ts.drop n) :=
  fun text c member => refers text c (List.mem_of_mem_drop member)

/-- Behind the plain elements the text ends, or a reference starts. -/
theorem chars_plainRun (refers : Refers mark m target ts) :
    ts.flatMap Token.chars = plainRun ts ∨ ∃ rest, ts.flatMap Token.chars = plainRun ts ++ mark :: rest := by
  induction ts with
  | nil => exact Or.inl rfl
  | cons t ts ih =>
    cases t with
    | plain c =>
      rcases ih refers.tail with whole | ⟨rest, split⟩
      · exact Or.inl (by rw [List.flatMap_cons, whole]; rfl)
      · exact Or.inr ⟨rest, by rw [List.flatMap_cons, split]; rfl⟩
    | reference text c =>
      obtain ⟨⟨body, rfl, -⟩, -⟩ := refers text c List.mem_cons_self
      exact Or.inr ⟨body ++ ts.flatMap Token.chars, rfl⟩

theorem match_plainRun (decoder : Decoder mark m) {c : α} (refers : Refers mark m target (.plain c :: ts)) :
    m (c :: ts.flatMap Token.chars) = m (plainRun (.plain c :: ts)) := by
  rw [plainRun]
  rcases chars_plainRun refers.tail with whole | ⟨rest, split⟩
  · rw [whole]
  · rw [split]
    exact decoder.front c (plainRun ts) rest

theorem chars_drop {n : Nat} (within : n ≤ (plainRun ts).length) :
    (ts.flatMap Token.chars).drop n = (ts.drop n).flatMap Token.chars := by
  induction n generalizing ts with
  | zero => rfl
  | succ n ih =>
    cases ts with
    | nil => rfl
    | cons t ts =>
      cases t with
      | plain c => exact ih (Nat.le_of_succ_le_succ within)
      | reference text c => exact absurd within (Nat.not_succ_le_zero n)

/-- A pass over the text is the pass over its tokens. -/
theorem replaceEach_tokens (decoder : Decoder mark m) (refers : Refers mark m target ts) :
    replaceEach m 0 (ts.flatMap Token.chars) = (replaceTokens m target 0 ts).flatMap Token.chars := by
  induction size : ts.length using Nat.strong_induction_on generalizing ts with
  | _ n ih =>
    cases ts with
    | nil => rfl
    | cons t ts =>
      subst size
      have rest := ih ts.length (Nat.lt_succ_self _) refers.tail rfl
      cases t with
      | reference text c =>
        obtain ⟨⟨body, rfl, free⟩, matched⟩ := refers text c List.mem_cons_self
        have found : m (mark :: (body ++ ts.flatMap Token.chars)) = _ := matched (ts.flatMap Token.chars)
        rw [replaceTokens, List.flatMap_cons, List.flatMap_cons, ← rest, Token.decode, Token.chars]
        split at found
        · rename_i hit
          rw [if_pos hit, List.cons_append, replaceEach_some found, List.length_cons, Nat.add_sub_cancel, List.drop_left]
          rfl
        · rename_i miss
          rw [if_neg miss, List.cons_append, replaceEach_none found, replaceEach_free decoder.starts free]
          rfl
      | plain c =>
        have same := match_plainRun decoder refers
        rw [replaceTokens, List.flatMap_cons, Token.chars, List.singleton_append]
        cases found : m (plainRun (.plain c :: ts)) with
        | none =>
          rw [replaceEach_none (same.trans found), rest]
          rfl
        | some result =>
          obtain ⟨written, more⟩ := result
          obtain ⟨-, within, -⟩ := decoder.more found
          have fewer : (ts.drop more).length < ts.length + 1 := by
            rw [List.length_drop]
            omega
          have dropped := ih (ts.drop more).length fewer (refers.tail.drop more) rfl
          have plain : (written.map Token.plain).flatMap Token.chars = written := by
            rw [List.flatMap_map]
            exact List.flatMap_singleton' written
          rw [replaceEach_some (same.trans found), chars_drop within, dropped]
          dsimp only
          rw [List.flatMap_append, plain, ← replaceTokens_skip]

/-! ### What plain elements spell -/

/-- Somewhere plain elements spell a match. -/
def Spells (m : Matcher α) (ts : List (Token α)) : Prop :=
  ∃ front c back, ts = front ++ .plain c :: back ∧ (m (plainRun (.plain c :: back))).isSome

theorem spells_cons {t : Token α} (spells : Spells m (t :: ts)) :
    (∃ c, t = .plain c ∧ (m (plainRun (t :: ts))).isSome) ∨ Spells m ts := by
  obtain ⟨front, c, back, split, found⟩ := spells
  cases front with
  | nil =>
    obtain ⟨rfl, rfl⟩ := List.cons.inj split
    exact Or.inl ⟨c, rfl, found⟩
  | cons first front =>
    obtain ⟨rfl, rfl⟩ := List.cons.inj split
    exact Or.inr ⟨front, c, back, rfl, found⟩

theorem Spells.tail {t : Token α} (spells : Spells m ts) : Spells m (t :: ts) := by
  obtain ⟨front, c, back, rfl, found⟩ := spells
  exact ⟨t :: front, c, back, rfl, found⟩

theorem replaceTokens_quiet (quiet : ¬ Spells m ts) : replaceTokens m target 0 ts = ts.map (Token.decode target) := by
  induction ts with
  | nil => rfl
  | cons t ts ih =>
    have rest := ih fun spells => quiet spells.tail
    cases t with
    | reference text c => rw [replaceTokens, rest, List.map_cons]
    | plain c =>
      have none : m (plainRun (.plain c :: ts)) = none := by
        rw [← Option.not_isSome_iff_eq_none]
        exact fun found => quiet ⟨[], c, ts, rfl, found⟩
      rw [replaceTokens, none, rest]
      rfl

theorem length_replaceTokens (decoder : Decoder mark m) (skip : Nat) (ts : List (Token α)) :
    (replaceTokens m target skip ts).length ≤ ts.length - skip := by
  induction ts generalizing skip with
  | nil => simp [replaceTokens]
  | cons t ts ih =>
    cases skip with
    | succ skip =>
      have rest := ih skip
      rw [replaceTokens, List.length_cons]
      omega
    | zero =>
      have rest := ih 0
      cases t with
      | reference text c =>
        rw [replaceTokens, List.length_cons, List.length_cons]
        omega
      | plain c =>
        rw [replaceTokens]
        split
        · rename_i written more found
          obtain ⟨some_, within, short⟩ := decoder.more found
          have behind := ih more
          have run := length_plainRun ts
          rw [List.length_append, List.length_map, List.length_cons]
          omega
        · rw [List.length_cons, List.length_cons]
          omega

/-- What is spelled costs a token. -/
theorem length_replaceTokens_spells (decoder : Decoder mark m) {skip : Nat} (spells : Spells m (ts.drop skip)) :
    (replaceTokens m target skip ts).length < ts.length - skip := by
  induction ts generalizing skip with
  | nil =>
    obtain ⟨front, c, back, split, -⟩ := spells
    simp at split
  | cons t ts ih =>
    cases skip with
    | succ skip =>
      have rest := @ih skip spells
      rw [replaceTokens, List.length_cons]
      omega
    | zero =>
      cases t with
      | reference text c =>
        have behind : Spells m (ts.drop 0) := by
          rcases spells_cons spells with ⟨d, same, -⟩ | rest
          · cases same
          · exact rest
        have rest := ih behind
        rw [replaceTokens, List.length_cons, List.length_cons]
        omega
      | plain c =>
        rw [replaceTokens]
        split
        · rename_i written more found
          obtain ⟨some_, within, short⟩ := decoder.more found
          have behind := @length_replaceTokens _ m mark target decoder more ts
          have run := length_plainRun ts
          rw [List.length_append, List.length_map, List.length_cons]
          omega
        · rename_i none
          have behind : Spells m (ts.drop 0) := by
            rcases spells_cons spells with ⟨d, -, found⟩ | rest
            · rw [none] at found
              cases found
            · exact rest
          have rest := ih behind
          rw [List.length_cons, List.length_cons]
          omega

/-- A pass leaves the references it is not meant for. -/
theorem reference_replaceTokens {skip : Nat} {text : List α} {c : α} (member : .reference text c ∈ replaceTokens m target skip ts) :
    .reference text c ∈ ts ∧ target text = false := by
  induction ts generalizing skip with
  | nil => simp [replaceTokens] at member
  | cons t ts ih =>
    cases skip with
    | succ skip =>
      rw [replaceTokens] at member
      exact (ih member).imp_left (List.mem_cons_of_mem _)
    | zero =>
      cases t with
      | reference first d =>
        rw [replaceTokens, Token.decode] at member
        rcases List.mem_cons.mp member with same | member
        · split at same
          · cases same
          · rename_i other
            obtain ⟨rfl, rfl⟩ := Token.reference.inj same
            exact ⟨List.mem_cons_self, by simpa using other⟩
        · exact (ih member).imp_left (List.mem_cons_of_mem _)
      | plain d =>
        rw [replaceTokens] at member
        split at member
        · rcases List.mem_append.mp member with written | member
          · obtain ⟨e, -, same⟩ := List.mem_map.mp written
            cases same
          · exact (ih member).imp_left (List.mem_cons_of_mem _)
        · rcases List.mem_cons.mp member with same | member
          · cases same
          · exact (ih member).imp_left (List.mem_cons_of_mem _)

/-- Where no plain element is the mark, nothing is spelled. -/
theorem quiet_of_free (starts : StartsWith mark m) (free : ∀ c, .plain c ∈ ts → c ≠ mark) : ¬ Spells m ts := by
  rintro ⟨front, c, back, rfl, found⟩
  have other := free c (by simp)
  rw [plainRun, starts c _ other] at found
  cases found

def Token.shown : Token α → Option α
  | .plain c => some c
  | .reference _ _ => none

theorem prefix_plainRun (cs : List α) (ts : List (Token α)) : cs <+: plainRun ts ↔ cs.map some <+: ts.map Token.shown := by
  induction ts generalizing cs with
  | nil => cases cs <;> simp [plainRun]
  | cons t ts ih =>
    cases cs with
    | nil => simp
    | cons c cs =>
      cases t with
      | plain d => simp [plainRun, Token.shown, List.cons_prefix_cons, ih cs]
      | reference text d => simp [plainRun, Token.shown, List.cons_prefix_cons]

/-- A matcher that matches words spells them where the plain elements show one. -/
theorem spells_iff {word : List α → Prop} (some_ : ∀ w, word w → w ≠ []) (matched : ∀ cs, (m cs).isSome ↔ ∃ w, word w ∧ w <+: cs)
    (ts : List (Token α)) : Spells m ts ↔ ∃ w, word w ∧ w.map some <:+: ts.map Token.shown := by
  constructor
  · rintro ⟨front, c, back, rfl, found⟩
    obtain ⟨w, known, start⟩ := (matched _).mp found
    refine ⟨w, known, ?_⟩
    rw [List.map_append]
    exact ((prefix_plainRun w _).mp start).isInfix.trans (List.suffix_append _ _).isInfix
  · rintro ⟨w, known, front, back, split⟩
    rw [List.append_assoc] at split
    obtain ⟨first, rest, rfl, -, behind⟩ := List.map_eq_append_iff.mp split.symm
    obtain ⟨c, cs, rfl⟩ := List.exists_cons_of_ne_nil (some_ w known)
    have start : (c :: cs).map some <+: rest.map Token.shown := ⟨back, behind.symm⟩
    cases rest with
    | nil => simp at behind
    | cons t rest =>
      cases t with
      | reference text d => simp [Token.shown] at behind
      | plain d =>
        exact ⟨first, d, rest, rfl, (matched _).mpr ⟨c :: cs, known, (prefix_plainRun _ _).mpr start⟩⟩

/-- A word without the mark ends before it. -/
theorem prefix_mark {word : List α} (free : mark ∉ word) (front rest : List α) : word <+: front ++ mark :: rest ↔ word <+: front := by
  constructor
  · intro start
    by_cases short : word.length ≤ front.length
    · exact List.prefix_of_prefix_length_le start (List.prefix_append _ _) short
    · have mark_ : front ++ [mark] <+: front ++ mark :: rest := ⟨rest, by simp⟩
      have inside := List.prefix_of_prefix_length_le mark_ start (by simp; omega)
      exact absurd (inside.subset (by simp)) free
  · exact fun start => start.trans (List.prefix_append _ _)

theorem value_decode (t : Token α) : (t.decode target).value = t.value := by
  cases t with
  | plain c => rfl
  | reference text c =>
    rw [Token.decode]
    split <;> rfl

theorem chars_plain (plain : ∀ text c, .reference text c ∉ ts) : ts.flatMap Token.chars = ts.map Token.value := by
  induction ts with
  | nil => rfl
  | cons t ts ih =>
    have rest := ih fun text c held => plain text c (List.mem_cons_of_mem _ held)
    cases t with
    | plain c =>
      rw [List.flatMap_cons, List.map_cons, rest]
      rfl
    | reference text c => exact absurd List.mem_cons_self (plain text c)

/-- The matches are the words a predicate names, one mark in front of each and none in it. -/
structure Reads (mark : α) (word : List α → Prop) (written : List α → List α) (m : Matcher α) : Prop where
  marked : ∀ w, word w → ∃ body, w = mark :: body ∧ body ≠ [] ∧ mark ∉ body
  short : ∀ w, word w → (written w).length ≤ 1
  found : ∀ cs result, m cs = some result ↔ ∃ w, word w ∧ w <+: cs ∧ result = (written w, w.length - 1)

theorem Reads.decoder {word : List α → Prop} {written : List α → List α} (reads : Reads mark word written m) : Decoder mark m where
  starts := fun c cs other => by
    rw [Option.eq_none_iff_forall_ne_some]
    intro result found
    obtain ⟨w, known, start, -⟩ := (reads.found _ _).mp found
    obtain ⟨body, rfl, -⟩ := reads.marked w known
    exact other (List.cons_prefix_cons.mp start).1.symm
  more := fun {c cs out more} found => by
    obtain ⟨w, known, start, shape⟩ := (reads.found _ _).mp found
    obtain ⟨body, rfl, some_, -⟩ := reads.marked w known
    obtain ⟨rfl, rfl⟩ := Prod.mk.inj shape
    have within := (List.cons_prefix_cons.mp start).2.length_le
    exact ⟨List.length_pos_of_ne_nil some_, within, reads.short _ known⟩
  front := fun c cs rest => by
    apply Option.ext
    intro result
    have same : ∀ w, word w → (w <+: c :: cs ++ mark :: rest ↔ w <+: c :: cs) := by
      intro w known
      obtain ⟨body, rfl, -, free⟩ := reads.marked w known
      rw [List.cons_append, List.cons_prefix_cons, List.cons_prefix_cons, prefix_mark free]
    rw [reads.found, reads.found]
    exact exists_congr fun w => and_congr_right fun known => and_congr_left fun _ => same w known

theorem Reads.isSome {word : List α → Prop} {written : List α → List α} (reads : Reads mark word written m) (cs : List α) :
    (m cs).isSome ↔ ∃ w, word w ∧ w <+: cs := by
  rw [Option.isSome_iff_exists]
  constructor
  · rintro ⟨result, found⟩
    obtain ⟨w, known, start, -⟩ := (reads.found _ _).mp found
    exact ⟨w, known, start⟩
  · rintro ⟨w, known, start⟩
    exact ⟨_, (reads.found _ _).mpr ⟨w, known, start, rfl⟩⟩

theorem Reads.spells {word : List α → Prop} {written : List α → List α} (reads : Reads mark word written m) (ts : List (Token α)) :
    Spells m ts ↔ ∃ w, word w ∧ w.map some <:+: ts.map Token.shown := by
  apply spells_iff
  · intro w known
    obtain ⟨body, rfl, -⟩ := reads.marked w known
    exact List.cons_ne_nil _ _
  · exact reads.isSome

end GroupButler.Foundation
