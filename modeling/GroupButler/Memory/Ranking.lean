import GroupButler.Foundation.Distinct
import GroupButler.Foundation.Text
import GroupButler.Prompt.Assemble
import Mathlib.Data.String.Basic

/-!
# Ranking recalled facts

`rankFacts` merges the facts a text search found with the recent ones: one entry for each id, one for each
normalized text, best score first, and no more than the two queries could return together.
-/

namespace GroupButler.Memory
open Foundation Prompt

def recallTextFactLimit : Nat := 12

def recallRecentFactLimit : Nat := 12

namespace FactRankWeights

def text : ℚ := 55 / 100
def recency : ℚ := 25 / 100
def kind : ℚ := 20 / 100

end FactRankWeights

def recencyWindowMs : ℚ := 30 * 24 * 60 * 60 * 1000

/-- `KIND_BOOST` -/
def kindBoost : MemoryFactKind → ℚ
  | .decision => 1
  | .commitment => 1
  | .actionItem => 7 / 10
  | .fact => 5 / 10
  | .question => 4 / 10

/-- An `ObjectId`, by the hexadecimal digits `toHexString` writes. `localeCompare` orders those as their code points. -/
structure ObjectId where
  toHexString : String
  digits : toHexString.length = 24 ∧ (toHexString.toList.all fun c => c.isDigit || ('a' ≤ c && c ≤ 'f')) = true
  deriving DecidableEq

theorem ObjectId.eq_of_hex {a b : ObjectId} (same : a.toHexString = b.toHexString) : a = b := by
  cases a
  cases b
  simpa using same

/-- A stored fact; its instants are milliseconds. -/
structure MemoryFactDoc where
  id : ObjectId
  batchId : ObjectId
  kind : MemoryFactKind
  text : String
  subject : Option String
  confidence : MemoryConfidence
  occurredAt : Option ℚ
  createdAt : ℚ
  sourceWaMessageIds : List String
  deriving DecidableEq

structure TextHit where
  fact : MemoryFactDoc
  score : ℚ
  deriving DecidableEq

structure RecalledFact where
  factId : String
  batchId : String
  kind : MemoryFactKind
  text : String
  subject : Option String
  confidence : MemoryConfidence
  occurredAt : Option ℚ
  createdAt : ℚ
  sourceWaMessageIds : List String
  textScore : ℚ
  score : ℚ
  deriving DecidableEq

/-- What a prompt reads of a recalled fact. -/
def RecalledFact.shown (fact : RecalledFact) : Prompt.RecalledFact where
  factId := fact.factId
  batchId := fact.batchId
  kind := fact.kind
  text := fact.text
  confidence := fact.confidence
  sourceWaMessageIds := fact.sourceWaMessageIds

/-- `String.prototype.toLowerCase` -/
class LowerCase where
  toLowerCase : String → String

/-- `value.replaceAll(/\s+/g, " ")` -/
def collapseSpace : List Char → List Char
  | [] => []
  | c :: cs =>
    if isJsSpace c then
      match collapseSpace cs with
      | ' ' :: rest => ' ' :: rest
      | rest => ' ' :: rest
    else c :: collapseSpace cs

section
variable [LowerCase]

def normalizeFactText (value : String) : String :=
  String.ofList (collapseSpace (LowerCase.toLowerCase (jsTrim value)).toList)

def factScore (fact : MemoryFactDoc) (textScore now : ℚ) : ℚ :=
  let occurred := fact.occurredAt.getD fact.createdAt
  let age := max 0 (now - occurred)
  let recency := max 0 (min 1 (1 - age / recencyWindowMs))
  textScore * FactRankWeights.text + recency * FactRankWeights.recency + kindBoost fact.kind * FactRankWeights.kind

/-- An entry of `byId`, whose keys are the ids. -/
structure Candidate where
  fact : MemoryFactDoc
  textScore : ℚ
  deriving DecidableEq

def addHit (byId : List Candidate) (hit : TextHit) : List Candidate :=
  match byId.find? fun entry => entry.fact.id = hit.fact.id with
  | none => byId ++ [⟨hit.fact, hit.score⟩]
  | some existing =>
    if hit.score > existing.textScore then
      byId.map fun entry => if entry.fact.id = hit.fact.id then ⟨hit.fact, hit.score⟩ else entry
    else byId

def addRecent (byId : List Candidate) (fact : MemoryFactDoc) : List Candidate :=
  if byId.any fun entry => entry.fact.id = fact.id then byId else byId ++ [⟨fact, 0⟩]

structure Ranked where
  fact : MemoryFactDoc
  textScore : ℚ
  normalized : String
  score : ℚ
  deriving DecidableEq

def Candidate.ranked (now : ℚ) (entry : Candidate) : Ranked :=
  ⟨entry.fact, entry.textScore, normalizeFactText entry.fact.text, factScore entry.fact entry.textScore now⟩

def Ranked.recalled (candidate : Ranked) : RecalledFact where
  factId := candidate.fact.id.toHexString
  batchId := candidate.fact.batchId.toHexString
  kind := candidate.fact.kind
  text := candidate.fact.text
  subject := candidate.fact.subject
  confidence := candidate.fact.confidence
  occurredAt := candidate.fact.occurredAt
  createdAt := candidate.fact.createdAt
  sourceWaMessageIds := candidate.fact.sourceWaMessageIds
  textScore := candidate.textScore
  score := candidate.score

/-- `b.score - a.score || a.id.localeCompare(b.id)`, not above zero. -/
def rankedOrder (a b : Ranked) : Bool :=
  decide (b.score < a.score) || (a.score == b.score && decide (a.fact.id.toHexString ≤ b.fact.id.toHexString))

/-- The loop over the ranking, with the texts seen and the facts kept. -/
def keepFacts : List Ranked → List String → List RecalledFact → List RecalledFact
  | [], _, kept => kept
  | candidate :: rest, seenText, kept =>
    if candidate.normalized ≠ "" ∧ candidate.normalized ∈ seenText then keepFacts rest seenText kept
    else
      let seenText := if candidate.normalized ≠ "" then candidate.normalized :: seenText else seenText
      let kept := kept ++ [candidate.recalled]
      if recallTextFactLimit + recallRecentFactLimit ≤ kept.length then kept else keepFacts rest seenText kept

def factCandidates (textHits : List TextHit) (recent : List MemoryFactDoc) : List Candidate :=
  recent.foldl addRecent (textHits.foldl addHit [])

def rankFacts (textHits : List TextHit) (recent : List MemoryFactDoc) (now : ℚ) : List RecalledFact :=
  keepFacts (((factCandidates textHits recent).map (Candidate.ranked now)).mergeSort rankedOrder) [] []

end

/-! ### One entry for each id -/

/-- The facts the two queries returned. -/
def docs (textHits : List TextHit) (recent : List MemoryFactDoc) : List MemoryFactDoc := textHits.map (·.fact) ++ recent

/-- The best score of a fact's hits; zero for a fact the search did not find. -/
def bestTextScore (textHits : List TextHit) (id : ObjectId) : ℚ :=
  ((textHits.filter fun hit => hit.fact.id = id).map (·.score)).max?.getD 0

/-- Two documents with one id are one document. -/
def Known (textHits : List TextHit) (recent : List MemoryFactDoc) : Prop :=
  ∀ a ∈ docs textHits recent, ∀ b ∈ docs textHits recent, a.id = b.id → a = b

theorem mem_scores {textHits : List TextHit} {id : ObjectId} {score : ℚ} :
    score ∈ (textHits.filter fun hit => hit.fact.id = id).map (·.score) ↔ ∃ hit ∈ textHits, hit.fact.id = id ∧ hit.score = score := by
  simp only [List.mem_map, List.mem_filter, decide_eq_true_eq, and_assoc]

theorem bestTextScore_none {textHits : List TextHit} {id : ObjectId} (none : ∀ hit ∈ textHits, hit.fact.id ≠ id) :
    bestTextScore textHits id = 0 := by
  have empty : (textHits.filter fun hit => hit.fact.id = id) = [] := by
    rw [List.filter_eq_nil_iff]
    intro hit member
    simpa using none hit member
  rw [bestTextScore, empty]
  rfl

theorem bestTextScore_hit {textHits : List TextHit} {hit : TextHit} (member : hit ∈ textHits)
    (best : ∀ other ∈ textHits, other.fact.id = hit.fact.id → other.score ≤ hit.score) :
    bestTextScore textHits hit.fact.id = hit.score := by
  have top : ((textHits.filter fun other => other.fact.id = hit.fact.id).map (·.score)).max? = some hit.score := by
    rw [List.max?_eq_some_iff]
    refine ⟨mem_scores.mpr ⟨hit, member, rfl, rfl⟩, fun score listed => ?_⟩
    obtain ⟨other, found, same, rfl⟩ := mem_scores.mp listed
    exact best other found same
  rw [bestTextScore, top]
  rfl

theorem bestTextScore_perm {textHits textHits' : List TextHit} (perm : textHits.Perm textHits') (id : ObjectId) :
    bestTextScore textHits id = bestTextScore textHits' id := by
  have scores := (perm.filter fun hit => hit.fact.id = id).map (·.score)
  have same : ((textHits.filter fun hit => hit.fact.id = id).map (·.score)).max? =
      ((textHits'.filter fun hit => hit.fact.id = id).map (·.score)).max? := by
    apply Option.ext
    intro top
    rw [List.max?_eq_some_iff, List.max?_eq_some_iff, scores.mem_iff]
    simp only [scores.mem_iff]
  rw [bestTextScore, same, bestTextScore]

/-- The entries after the hits `done`. -/
structure Merged (done : List TextHit) (byId : List Candidate) : Prop where
  ids : (byId.map (·.fact.id)).Nodup
  hit : ∀ entry ∈ byId, ∃ hit ∈ done, entry = ⟨hit.fact, hit.score⟩
  best : ∀ entry ∈ byId, ∀ hit ∈ done, hit.fact.id = entry.fact.id → hit.score ≤ entry.textScore
  covered : ∀ hit ∈ done, ∃ entry ∈ byId, entry.fact.id = hit.fact.id

theorem addHit_new {done : List TextHit} {byId : List Candidate} {hit : TextHit} (merged : Merged done byId)
    (fresh : ∀ entry ∈ byId, entry.fact.id ≠ hit.fact.id) : Merged (done ++ [hit]) (byId ++ [⟨hit.fact, hit.score⟩]) := by
  constructor
  · rw [List.map_append, List.nodup_append]
    refine ⟨merged.ids, List.nodup_singleton _, ?_⟩
    rintro id listed _ (_ | ⟨_, ⟨⟩⟩) rfl
    obtain ⟨entry, member, same⟩ := List.mem_map.mp listed
    exact fresh entry member same
  · intro entry member
    rcases List.mem_append.mp member with old | new
    · obtain ⟨found, known, same⟩ := merged.hit entry old
      exact ⟨found, List.mem_append_left _ known, same⟩
    · exact ⟨hit, List.mem_append_right _ (List.mem_singleton_self _), List.mem_singleton.mp new⟩
  · intro entry member other listed same
    rcases List.mem_append.mp member with old | new <;> rcases List.mem_append.mp listed with known | last
    · exact merged.best entry old other known same
    · obtain rfl := List.mem_singleton.mp last
      exact absurd same.symm (fresh entry old)
    · obtain rfl := List.mem_singleton.mp new
      obtain ⟨entry, found, id⟩ := merged.covered other known
      exact absurd (id.trans same) (fresh entry found)
    · obtain rfl := List.mem_singleton.mp new
      obtain rfl := List.mem_singleton.mp last
      exact le_rfl
  · intro other listed
    rcases List.mem_append.mp listed with known | last
    · obtain ⟨entry, found, id⟩ := merged.covered other known
      exact ⟨entry, List.mem_append_left _ found, id⟩
    · obtain rfl := List.mem_singleton.mp last
      exact ⟨_, List.mem_append_right _ (List.mem_singleton_self _), rfl⟩

theorem addHit_old {done : List TextHit} {byId : List Candidate} {hit : TextHit} {existing : Candidate}
    (merged : Merged done byId) (member : existing ∈ byId) (same : existing.fact.id = hit.fact.id)
    (lower : hit.score ≤ existing.textScore) : Merged (done ++ [hit]) byId := by
  refine ⟨merged.ids, fun entry stored => ?_, fun entry stored other listed id => ?_, fun other listed => ?_⟩
  · obtain ⟨found, known, eq⟩ := merged.hit entry stored
    exact ⟨found, List.mem_append_left _ known, eq⟩
  · rcases List.mem_append.mp listed with known | last
    · exact merged.best entry stored other known id
    · obtain rfl := List.mem_singleton.mp last
      obtain rfl := List.inj_on_of_nodup_map merged.ids member stored (same.trans id)
      exact lower
  · rcases List.mem_append.mp listed with known | last
    · exact merged.covered other known
    · obtain rfl := List.mem_singleton.mp last
      exact ⟨existing, member, same⟩

theorem addHit_better {done : List TextHit} {byId : List Candidate} {hit : TextHit} {existing : Candidate}
    (merged : Merged done byId) (member : existing ∈ byId) (same : existing.fact.id = hit.fact.id)
    (higher : existing.textScore < hit.score) :
    Merged (done ++ [hit])
      (byId.map fun entry => if entry.fact.id = hit.fact.id then ⟨hit.fact, hit.score⟩ else entry) := by
  have ids : (byId.map fun entry => if entry.fact.id = hit.fact.id then (⟨hit.fact, hit.score⟩ : Candidate) else entry).map
      (·.fact.id) = byId.map (·.fact.id) := by
    rw [List.map_map]
    apply List.map_congr_left
    intro entry _
    rw [Function.comp_apply]
    split
    · rename_i id
      exact id.symm
    · rfl
  constructor
  · rw [ids]
    exact merged.ids
  · intro entry changed
    obtain ⟨old, stored, rfl⟩ := List.mem_map.mp changed
    split
    · exact ⟨hit, List.mem_append_right _ (List.mem_singleton_self _), rfl⟩
    · obtain ⟨found, known, eq⟩ := merged.hit old stored
      exact ⟨found, List.mem_append_left _ known, eq⟩
  · intro entry changed other listed
    obtain ⟨old, stored, rfl⟩ := List.mem_map.mp changed
    split
    · intro id
      rcases List.mem_append.mp listed with known | last
      · exact (merged.best existing member other known (id.trans same.symm)).trans higher.le
      · obtain rfl := List.mem_singleton.mp last
        exact le_rfl
    · rename_i apart
      intro id
      rcases List.mem_append.mp listed with known | last
      · exact merged.best old stored other known id
      · obtain rfl := List.mem_singleton.mp last
        exact absurd id.symm apart
  · intro other listed
    have found : ∃ entry ∈ byId, entry.fact.id = other.fact.id := by
      rcases List.mem_append.mp listed with known | last
      · exact merged.covered other known
      · obtain rfl := List.mem_singleton.mp last
        exact ⟨existing, member, same⟩
    obtain ⟨entry, stored, id⟩ := found
    obtain ⟨changed, listed', id'⟩ := List.mem_map.mp (ids.symm ▸ List.mem_map_of_mem (f := fun entry : Candidate => entry.fact.id) stored)
    exact ⟨changed, listed', id'.trans id⟩

theorem addHit_merged {done : List TextHit} {byId : List Candidate} (merged : Merged done byId) (hit : TextHit) :
    Merged (done ++ [hit]) (addHit byId hit) := by
  unfold addHit
  split
  · rename_i none
    exact addHit_new merged fun entry member => by simpa using List.find?_eq_none.mp none entry member
  · rename_i existing found
    have member := List.mem_of_find?_eq_some found
    have same : existing.fact.id = hit.fact.id := by simpa using List.find?_some found
    split
    · rename_i higher
      exact addHit_better merged member same higher
    · rename_i lower
      exact addHit_old merged member same (not_lt.mp lower)

theorem hits_merged (done rest : List TextHit) {byId : List Candidate} (merged : Merged done byId) :
    Merged (done ++ rest) (rest.foldl addHit byId) := by
  induction rest generalizing done byId with
  | nil =>
    rw [List.append_nil]
    exact merged
  | cons hit rest ih =>
    have next := ih (done ++ [hit]) (addHit_merged merged hit)
    rwa [List.append_assoc] at next

/-- The entries after the hits and the recent facts `done`. -/
structure Listed (textHits : List TextHit) (done : List MemoryFactDoc) (byId : List Candidate) : Prop where
  ids : (byId.map (·.fact.id)).Nodup
  known : ∀ entry ∈ byId, entry.fact ∈ docs textHits done
  scored : ∀ entry ∈ byId, entry.textScore = bestTextScore textHits entry.fact.id
  covered : ∀ doc ∈ docs textHits done, ∃ entry ∈ byId, entry.fact.id = doc.id

theorem merged_listed {textHits : List TextHit} {byId : List Candidate} (merged : Merged textHits byId) :
    Listed textHits [] byId := by
  have docs_nil : docs textHits [] = textHits.map (·.fact) := List.append_nil _
  refine ⟨merged.ids, fun entry member => ?_, fun entry member => ?_, fun doc member => ?_⟩
  · obtain ⟨hit, found, rfl⟩ := merged.hit entry member
    exact docs_nil ▸ List.mem_map_of_mem found
  · obtain ⟨hit, found, rfl⟩ := merged.hit entry member
    exact (bestTextScore_hit found (merged.best _ member)).symm
  · obtain ⟨hit, found, rfl⟩ := List.mem_map.mp (docs_nil ▸ member)
    exact merged.covered hit found

theorem addRecent_listed {textHits : List TextHit} {done : List MemoryFactDoc} {byId : List Candidate}
    (listed : Listed textHits done byId) (fact : MemoryFactDoc) : Listed textHits (done ++ [fact]) (addRecent byId fact) := by
  have more : docs textHits (done ++ [fact]) = docs textHits done ++ [fact] := (List.append_assoc _ _ _).symm
  unfold addRecent
  split
  · rename_i taken
    obtain ⟨entry, member, same⟩ := List.any_eq_true.mp taken
    rw [decide_eq_true_eq] at same
    refine ⟨listed.ids, fun entry stored => ?_, listed.scored, fun doc given => ?_⟩
    · rw [more]
      exact List.mem_append_left _ (listed.known entry stored)
    · rw [more] at given
      rcases List.mem_append.mp given with old | new
      · exact listed.covered doc old
      · obtain rfl := List.mem_singleton.mp new
        exact ⟨entry, member, same⟩
  · rename_i free
    have fresh : ∀ entry ∈ byId, entry.fact.id ≠ fact.id := fun entry member same =>
      free (List.any_eq_true.mpr ⟨entry, member, decide_eq_true same⟩)
    constructor
    · rw [List.map_append, List.nodup_append]
      refine ⟨listed.ids, List.nodup_singleton _, ?_⟩
      rintro id given _ (_ | ⟨_, ⟨⟩⟩) rfl
      obtain ⟨entry, member, same⟩ := List.mem_map.mp given
      exact fresh entry member same
    · intro entry member
      rw [more]
      rcases List.mem_append.mp member with old | new
      · exact List.mem_append_left _ (listed.known entry old)
      · rw [List.mem_singleton.mp new]
        exact List.mem_append_right _ (List.mem_singleton_self _)
    · intro entry member
      rcases List.mem_append.mp member with old | new
      · exact listed.scored entry old
      · rw [List.mem_singleton.mp new]
        refine (bestTextScore_none fun hit found same => ?_).symm
        obtain ⟨entry, stored, id⟩ := listed.covered hit.fact (List.mem_append_left _ (List.mem_map_of_mem found))
        exact fresh entry stored (id.trans same)
    · intro doc given
      rw [more] at given
      rcases List.mem_append.mp given with old | new
      · obtain ⟨entry, stored, id⟩ := listed.covered doc old
        exact ⟨entry, List.mem_append_left _ stored, id⟩
      · exact ⟨_, List.mem_append_right _ (List.mem_singleton_self _), by rw [List.mem_singleton.mp new]⟩

theorem recent_listed {textHits : List TextHit} (done rest : List MemoryFactDoc) {byId : List Candidate}
    (listed : Listed textHits done byId) : Listed textHits (done ++ rest) (rest.foldl addRecent byId) := by
  induction rest generalizing done byId with
  | nil =>
    rw [List.append_nil]
    exact listed
  | cons fact rest ih =>
    have next := ih (done ++ [fact]) (addRecent_listed listed fact)
    rwa [List.append_assoc] at next

theorem factCandidates_listed (textHits : List TextHit) (recent : List MemoryFactDoc) :
    Listed textHits recent (factCandidates textHits recent) := by
  have start : Merged [] [] := ⟨List.nodup_nil, by simp, by simp, by simp⟩
  exact recent_listed [] recent (merged_listed (hits_merged [] textHits start))

/-! ### One ranking -/

section
variable {textHits textHits' : List TextHit} {recent recent' : List MemoryFactDoc}

theorem mem_factCandidates (known : Known textHits recent) {entry : Candidate} :
    entry ∈ factCandidates textHits recent ↔
      entry.fact ∈ docs textHits recent ∧ entry.textScore = bestTextScore textHits entry.fact.id := by
  have listed := factCandidates_listed textHits recent
  constructor
  · intro member
    exact ⟨listed.known entry member, listed.scored entry member⟩
  · rintro ⟨given, scored⟩
    obtain ⟨other, stored, same⟩ := listed.covered entry.fact given
    have fact := known other.fact (listed.known other stored) entry.fact given same
    have score : other.textScore = entry.textScore := by rw [listed.scored other stored, scored, same]
    obtain ⟨fact', score'⟩ := other
    obtain rfl : fact' = entry.fact := fact
    obtain rfl : score' = entry.textScore := score
    exact stored

theorem docs_perm (hits : textHits.Perm textHits') (facts : recent.Perm recent') :
    (docs textHits recent).Perm (docs textHits' recent') := (hits.map _).append facts

theorem known_perm (hits : textHits.Perm textHits') (facts : recent.Perm recent') (known : Known textHits recent) :
    Known textHits' recent' := fun a given b given' =>
  known a ((docs_perm hits facts).mem_iff.mpr given) b ((docs_perm hits facts).mem_iff.mpr given')

theorem factCandidates_perm (known : Known textHits recent) (hits : textHits.Perm textHits') (facts : recent.Perm recent') :
    (factCandidates textHits recent).Perm (factCandidates textHits' recent') := by
  have distinct (textHits : List TextHit) (recent : List MemoryFactDoc) : (factCandidates textHits recent).Nodup :=
    List.Nodup.of_map _ (factCandidates_listed textHits recent).ids
  rw [List.perm_ext_iff_of_nodup (distinct _ _) (distinct _ _)]
  intro entry
  rw [mem_factCandidates known, mem_factCandidates (known_perm hits facts known), (docs_perm hits facts).mem_iff,
    bestTextScore_perm hits]

end

/-- Score first, the id among equal scores. -/
def Above (a b : RecalledFact) : Prop := b.score < a.score ∨ a.score = b.score ∧ a.factId < b.factId

theorem rankedOrder_iff {a b : Ranked} : rankedOrder a b = true ↔
    b.score < a.score ∨ a.score = b.score ∧ a.fact.id.toHexString ≤ b.fact.id.toHexString := by
  simp [rankedOrder]

theorem rankedOrder_trans (a b c : Ranked) (first : rankedOrder a b = true) (second : rankedOrder b c = true) :
    rankedOrder a c = true := by
  rw [rankedOrder_iff] at first second ⊢
  rcases first with first | ⟨first, ids⟩ <;> rcases second with second | ⟨second, ids'⟩
  · exact Or.inl (second.trans first)
  · exact Or.inl (second ▸ first)
  · exact Or.inl (first ▸ second)
  · exact Or.inr ⟨first.trans second, ids.trans ids'⟩

theorem rankedOrder_total (a b : Ranked) : (rankedOrder a b || rankedOrder b a) = true := by
  rw [Bool.or_eq_true, rankedOrder_iff, rankedOrder_iff]
  rcases lt_trichotomy a.score b.score with below | same | above
  · exact Or.inr (Or.inl below)
  · rcases le_total a.fact.id.toHexString b.fact.id.toHexString with le | le
    · exact Or.inl (Or.inr ⟨same, le⟩)
    · exact Or.inr (Or.inr ⟨same.symm, le⟩)
  · exact Or.inl (Or.inl above)

theorem rankedOrder_id {a b : Ranked} (first : rankedOrder a b = true) (second : rankedOrder b a = true) : a.fact.id = b.fact.id := by
  rw [rankedOrder_iff] at first second
  have ids : a.fact.id.toHexString = b.fact.id.toHexString := by
    rcases first with first | ⟨first, ids⟩ <;> rcases second with second | ⟨second, ids'⟩
    · exact absurd first second.asymm
    · exact absurd first (second ▸ lt_irrefl _)
    · exact absurd second (first ▸ lt_irrefl _)
    · exact le_antisymm ids ids'
  exact ObjectId.eq_of_hex ids

section
variable [LowerCase] {textHits textHits' : List TextHit} {recent recent' : List MemoryFactDoc} {now : ℚ}

variable (textHits recent now) in
/-- The entries in the order of the ranking. -/
def ranking : List Ranked := ((factCandidates textHits recent).map (Candidate.ranked now)).mergeSort rankedOrder

theorem ranking_ids (now : ℚ) : ((ranking textHits recent now).map (·.fact.id)).Nodup := by
  have perm := (List.mergeSort_perm ((factCandidates textHits recent).map (Candidate.ranked now)) rankedOrder).map (·.fact.id)
  have ids := (factCandidates_listed textHits recent).ids
  rw [ranking, perm.nodup_iff, List.map_map]
  exact ids

theorem ranking_perm (known : Known textHits recent) (hits : textHits.Perm textHits') (facts : recent.Perm recent') (now : ℚ) :
    ranking textHits recent now = ranking textHits' recent' now := by
  have perm : (ranking textHits recent now).Perm (ranking textHits' recent' now) :=
    (List.mergeSort_perm _ _).trans (((factCandidates_perm known hits facts).map _).trans (List.mergeSort_perm _ _).symm)
  refine perm.eq_of_pairwise ?_ (List.pairwise_mergeSort rankedOrder_trans rankedOrder_total _)
    (List.pairwise_mergeSort rankedOrder_trans rankedOrder_total _)
  intro a b member member' first second
  exact List.inj_on_of_nodup_map (ranking_ids now) member (perm.mem_iff.mpr member') (rankedOrder_id first second)

/-- Strictly ordered: no two entries share an id. -/
theorem ranking_above (now : ℚ) : (ranking textHits recent now).Pairwise fun a b => Above a.recalled b.recalled := by
  have ordered : (ranking textHits recent now).Pairwise fun a b => rankedOrder a b = true :=
    List.pairwise_mergeSort rankedOrder_trans rankedOrder_total _
  have apart : (ranking textHits recent now).Pairwise fun a b => a.fact.id ≠ b.fact.id := List.pairwise_map.mp (ranking_ids now)
  refine (ordered.and apart).imp fun {a b} both => ?_
  rcases rankedOrder_iff.mp both.1 with below | ⟨same, le⟩
  · exact Or.inl below
  · exact Or.inr ⟨same, lt_of_le_of_ne le fun ids => both.2 (ObjectId.eq_of_hex ids)⟩

variable (textHits now) in
/-- A document as the answer shows it. -/
def recalledDoc (doc : MemoryFactDoc) : RecalledFact :=
  ((⟨doc, bestTextScore textHits doc.id⟩ : Candidate).ranked now).recalled

theorem mem_ranking {candidate : Ranked} (member : candidate ∈ ranking textHits recent now) :
    ∃ doc ∈ docs textHits recent, candidate = (⟨doc, bestTextScore textHits doc.id⟩ : Candidate).ranked now := by
  obtain ⟨entry, stored, rfl⟩ := List.mem_map.mp (List.mem_mergeSort.mp member)
  have listed := factCandidates_listed textHits recent
  refine ⟨entry.fact, listed.known entry stored, ?_⟩
  rw [← listed.scored entry stored]

theorem ranking_mem (known : Known textHits recent) {doc : MemoryFactDoc} (given : doc ∈ docs textHits recent) :
    (⟨doc, bestTextScore textHits doc.id⟩ : Candidate).ranked now ∈ ranking textHits recent now :=
  List.mem_mergeSort.mpr (List.mem_map_of_mem ((mem_factCandidates known).mpr ⟨given, rfl⟩))

/-! ### What is kept of it -/

/-- The key of `seenText`: a text that normalizes to nothing has none. -/
def textKey (candidate : Ranked) : Option String := if candidate.normalized = "" then none else some candidate.normalized

omit [LowerCase] in
theorem keepFacts_eq (ranked : List Ranked) (seenText : List String) (kept : List RecalledFact) {room : Nat}
    (left : kept.length + (room + 1) = 24) :
    keepFacts ranked seenText kept = kept ++ (firstOfEach textKey seenText (room + 1) ranked).map Ranked.recalled := by
  induction ranked generalizing seenText kept room with
  | nil => simp [keepFacts, firstOfEach_nil]
  | cons candidate rest ih =>
    have limit : recallTextFactLimit + recallRecentFactLimit = 24 := rfl
    have pushed : (kept ++ [candidate.recalled]).length = kept.length + 1 := List.length_append
    rw [keepFacts]
    split
    · rename_i repeated
      have keyed : textKey candidate = some candidate.normalized := if_neg repeated.1
      rw [firstOfEach_seen keyed repeated.2, ih seenText kept left]
    · rename_i taken
      -- the pass over the rest, with the keys now seen
      have next (seen : List String) (first : firstOfEach textKey seenText (room + 1) (candidate :: rest) =
          candidate :: firstOfEach textKey seen room rest) :
          (if recallTextFactLimit + recallRecentFactLimit ≤ (kept ++ [candidate.recalled]).length then kept ++ [candidate.recalled]
            else keepFacts rest seen (kept ++ [candidate.recalled])) =
            kept ++ (firstOfEach textKey seenText (room + 1) (candidate :: rest)).map Ranked.recalled := by
        rw [first, List.map_cons, limit, pushed]
        cases room with
        | zero =>
          rw [if_pos (by omega), firstOfEach_zero]
          rfl
        | succ room =>
          have left' : (kept ++ [candidate.recalled]).length + (room + 1) = 24 := by omega
          rw [if_neg (by omega), ih seen _ left', List.append_assoc]
          rfl
      by_cases empty : candidate.normalized = ""
      · simp only [empty, ne_eq, not_true_eq_false, if_false]
        have keyless : textKey candidate = none := if_pos empty
        exact next seenText (firstOfEach_keyless keyless rest)
      · simp only [empty, ne_eq, not_false_eq_true, if_true]
        have keyed : textKey candidate = some candidate.normalized := if_neg empty
        exact next _ (firstOfEach_fresh keyed (fun old => taken ⟨empty, old⟩) rest)

theorem rankFacts_eq : rankFacts textHits recent now =
    (firstOfEach textKey [] 24 (ranking textHits recent now)).map Ranked.recalled := by
  have left : ([] : List RecalledFact).length + (23 + 1) = 24 := rfl
  rw [rankFacts, keepFacts_eq _ [] [] left, List.nil_append]
  rfl

/-- The facts kept are the top of the ranking: at most 24, in order, of different texts, with their best scores,
and nothing else belongs among them. -/
structure Top (textHits : List TextHit) (recent : List MemoryFactDoc) (now : ℚ) (kept : List RecalledFact) : Prop where
  bounded : kept.length ≤ 24
  ordered : kept.Pairwise Above
  texts : kept.Pairwise fun a b => normalizeFactText a.text ≠ "" → normalizeFactText a.text ≠ normalizeFactText b.text
  scored : ∀ fact ∈ kept, ∃ doc ∈ docs textHits recent, fact = recalledDoc textHits now doc
  omitted : ∀ doc ∈ docs textHits recent, recalledDoc textHits now doc ∉ kept →
    (∃ fact ∈ kept, normalizeFactText fact.text = normalizeFactText doc.text ∧ normalizeFactText doc.text ≠ "" ∧
        Above fact (recalledDoc textHits now doc)) ∨
      kept.length = 24 ∧ ∀ fact ∈ kept, Above fact (recalledDoc textHits now doc)

theorem normalized_ranking {candidate : Ranked} (member : candidate ∈ ranking textHits recent now) :
    candidate.normalized = normalizeFactText candidate.recalled.text := by
  obtain ⟨doc, -, rfl⟩ := mem_ranking member
  rfl

omit [LowerCase] in
theorem textKey_some {candidate : Ranked} {text : String} :
    textKey candidate = some text ↔ candidate.normalized = text ∧ text ≠ "" := by
  unfold textKey
  split
  · rename_i empty
    constructor
    · rintro ⟨⟩
    · rintro ⟨rfl, some_⟩
      exact absurd empty some_
  · rename_i some_
    constructor
    · rintro ⟨⟩
      exact ⟨rfl, some_⟩
    · rintro ⟨rfl, -⟩
      rfl

theorem rankFacts_top (known : Known textHits recent) : Top textHits recent now (rankFacts textHits recent now) := by
  have sublist : (firstOfEach textKey [] 24 (ranking textHits recent now)).Sublist (ranking textHits recent now) :=
    firstOfEach_sublist _
  have listed : ∀ candidate ∈ firstOfEach textKey [] 24 (ranking textHits recent now), candidate ∈ ranking textHits recent now :=
    fun _ kept => sublist.subset kept
  rw [rankFacts_eq]
  constructor
  · rw [List.length_map]
    exact firstOfEach_length _
  · exact List.pairwise_map.mpr ((ranking_above now).sublist sublist)
  · rw [List.pairwise_map]
    refine (firstOfEach_distinct _).imp_of_mem fun {a b} kept kept' distinct some_ same => ?_
    rw [← normalized_ranking (listed a kept)] at some_ same
    rw [← normalized_ranking (listed b kept')] at same
    exact distinct a.normalized (textKey_some.mpr ⟨rfl, some_⟩) (textKey_some.mpr ⟨same.symm, some_⟩)
  · intro fact member
    obtain ⟨candidate, kept, rfl⟩ := List.mem_map.mp member
    obtain ⟨doc, given, rfl⟩ := mem_ranking (listed candidate kept)
    exact ⟨doc, given, rfl⟩
  · intro doc given missing
    have member : (⟨doc, bestTextScore textHits doc.id⟩ : Candidate).ranked now ∈ ranking textHits recent now :=
      ranking_mem known given
    have omitted : (⟨doc, bestTextScore textHits doc.id⟩ : Candidate).ranked now ∉
        firstOfEach textKey [] 24 (ranking textHits recent now) := fun kept => missing (List.mem_map_of_mem kept)
    rcases firstOfEach_omitted (ranking_above now) member omitted with ⟨k, old, -⟩ | ⟨other, kept, above, text, own, same⟩ |
      ⟨full, above⟩
    · cases old
    · obtain ⟨own, some_⟩ := textKey_some.mp own
      obtain ⟨same, -⟩ := textKey_some.mp same
      rw [normalized_ranking (listed other kept)] at same
      refine Or.inl ⟨other.recalled, List.mem_map_of_mem kept, ?_, ?_, above⟩
      · exact same.trans own.symm
      · exact fun empty => some_ (own.symm.trans empty)
    · refine Or.inr ⟨by rw [List.length_map, full], fun fact shown => ?_⟩
      obtain ⟨other, kept, rfl⟩ := List.mem_map.mp shown
      exact above other kept

/-- The ranking does not depend on the order of either list, and keeps the top of the facts given. -/
theorem rankFacts_canonical (known : Known textHits recent) (now : ℚ) :
    (∀ textHits' recent', textHits.Perm textHits' → recent.Perm recent' →
        rankFacts textHits' recent' now = rankFacts textHits recent now) ∧
      Top textHits recent now (rankFacts textHits recent now) := by
  refine ⟨fun textHits' recent' hits facts => ?_, rankFacts_top known⟩
  rw [rankFacts_eq, rankFacts_eq, ranking_perm known hits facts]

end

def noteId : ObjectId := ⟨"000000000000000000000001", by decide⟩

def planId : ObjectId := ⟨"000000000000000000000002", by decide⟩

def noteFact (id : ObjectId) (text : String) : MemoryFactDoc :=
  ⟨id, noteId, .fact, text, none, .stated, none, 0, ["A"]⟩

/-- A fact found twice, and again among the recent ones beside a copy of its text. -/
theorem rankFacts_canonical_note :
    letI : LowerCase := ⟨id⟩
    (∀ textHits' recent',
        [⟨noteFact noteId "They meet.", 1⟩, ⟨noteFact noteId "They meet.", 2⟩].Perm textHits' →
          [noteFact planId " They  meet.", noteFact noteId "They meet."].Perm recent' →
            rankFacts textHits' recent' 0 = rankFacts [⟨noteFact noteId "They meet.", 1⟩, ⟨noteFact noteId "They meet.", 2⟩]
              [noteFact planId " They  meet.", noteFact noteId "They meet."] 0) ∧
      Top [⟨noteFact noteId "They meet.", 1⟩, ⟨noteFact noteId "They meet.", 2⟩]
        [noteFact planId " They  meet.", noteFact noteId "They meet."] 0
        (rankFacts [⟨noteFact noteId "They meet.", 1⟩, ⟨noteFact noteId "They meet.", 2⟩]
          [noteFact planId " They  meet.", noteFact noteId "They meet."] 0) :=
  letI : LowerCase := ⟨id⟩
  rankFacts_canonical (by unfold Known; decide) 0

end GroupButler.Memory
