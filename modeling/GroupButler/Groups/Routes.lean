import GroupButler.Foundation.Uri
import GroupButler.Ingest.HostPath

/-!
# Worker routes

The web application names a worker route by its segments; the worker's mux and `splitPath` read them back
from the request path. `WORKER_URL` is an origin, as every deployment file has it.
-/

namespace GroupButler.Groups
open Foundation

/-! ### The caller -/

/-- The path of the URL `callWorker` builds: the encoded segments, resolved against the worker's root. -/
def callWorkerPath (segments : List String) : List Char :=
  let relative := ['/'].intercalate (segments.map fun segment => (encodeURIComponent segment).toList)
  '/' :: ['/'].intercalate (resolvePath [] (relative.splitOn '/'))

/-! ### The worker -/

/-- The mux's `cleanPath`: `path.Clean`, with a slash at the end kept. -/
def muxCleanPath (path : List Char) : List Char :=
  let clean := (Ingest.cleanPath (String.ofList path)).toList
  if path.getLast? = some '/' ∧ clean ≠ ['/'] then clean ++ ['/'] else clean

def slash : Nat := 0x2F

def instancesBytes : List Nat := toUtf8 "instances".toList

/-- `strings.Trim(path, "/")` -/
def trimSlashes (path : List Nat) : List Nat := ((path.dropWhile (· == slash)).reverse.dropWhile (· == slash)).reverse

def trimInstances (path : List Nat) : List Nat :=
  if instancesBytes.isPrefixOf path then path.drop instancesBytes.length else path

def splitPath (path : List Nat) : List (List Nat) :=
  let rest := trimSlashes (trimInstances (trimSlashes path))
  if rest = [] then [] else rest.splitOn slash

/-- What `handleInstanceSubresource` reads from a request path, or `none` where the request goes elsewhere: a path the
mux redirects, another pattern, or no percent-encoding. -/
def instanceSegments (path : List Char) : Option (List (List Nat)) :=
  if muxCleanPath path ≠ path then none
  else if (((path.drop 1).splitOn '/').head?.bind percentDecode) ≠ some instancesBytes then none
  else (percentDecode path).map splitPath

/-! ### Dispatch -/

inductive Route where
  | collection
  | instanceItem (instanceId : List Nat)
  | groupList (instanceId : List Nat)
  | groupSync (instanceId : List Nat)
  | group (instanceId groupJid : List Nat)
  | groupInfo (instanceId groupJid : List Nat)
  | groupParticipants (instanceId groupJid : List Nat)
  | groupAdmin (instanceId groupJid : List Nat)
  | refusePairing
  | unknown
  deriving DecidableEq

def word (s : String) : List Nat := toUtf8 s.toList

def handleGroupSubresource (instanceId : List Nat) (rest : List (List Nat)) : Route :=
  match rest with
  | [] => .groupList instanceId
  | [first] =>
    if first = word "sync" then .groupSync instanceId
    else if first ≠ [] then .group instanceId first
    else .unknown
  | [groupJid, last] =>
    if groupJid ≠ [] ∧ last = word "info" then .groupInfo instanceId groupJid
    else if groupJid ≠ [] ∧ last = word "participants" then .groupParticipants instanceId groupJid
    else if groupJid ≠ [] ∧ last = word "admin" then .groupAdmin instanceId groupJid
    else .unknown
  | _ => .unknown

def handleInstanceSubresource (tail : List (List Nat)) : Route :=
  match tail with
  | [] => .collection
  | [instanceId] => if instanceId ≠ [] then .instanceItem instanceId else .unknown
  | instanceId :: second :: rest =>
    if instanceId ≠ [] ∧ second = word "groups" then handleGroupSubresource instanceId rest
    else if rest = [] ∧ instanceId ≠ [] ∧ second ∈ ["pairing-code", "pair", "check"].map word then .refusePairing
    else .unknown

/-- The handler a request path reaches, with the ids it is given. -/
def workerRoute (path : List Char) : Option Route := (instanceSegments path).map handleInstanceSubresource

/-! ### Reading segments back -/

theorem slash_mem_utf8Bytes {c : Char} (member : slash ∈ utf8Bytes c) : c = '/' := by
  unfold utf8Bytes at member
  dsimp only at member
  repeat' split at member
  · exact char_eq_of_toNat (List.mem_singleton.mp member).symm
  all_goals
    simp only [slash, List.mem_cons, List.not_mem_nil, or_false] at member
    omega

theorem slash_mem_toUtf8 {cs : List Char} : slash ∈ toUtf8 cs ↔ '/' ∈ cs := by
  constructor
  · intro member
    obtain ⟨c, inside, byte⟩ := List.mem_flatMap.mp member
    exact slash_mem_utf8Bytes byte ▸ inside
  · exact fun inside => List.mem_flatMap.mpr ⟨'/', inside, by decide⟩

theorem dropWhile_run {first rest : List Nat} (run : ∀ byte ∈ first, byte = slash) (stops : rest.head? ≠ some slash) :
    (first ++ rest).dropWhile (· == slash) = rest := by
  induction first with
  | nil =>
    cases rest with
    | nil => rfl
    | cons byte rest =>
      rw [List.nil_append, List.dropWhile_cons_of_neg]
      simpa using stops
  | cons byte first ih =>
    rw [List.cons_append, List.dropWhile_cons_of_pos (by simp [run byte List.mem_cons_self])]
    exact ih fun other member => run other (List.mem_cons_of_mem _ member)

theorem trimSlashes_run {before core after : List Nat} (front : ∀ byte ∈ before, byte = slash)
    (back : ∀ byte ∈ after, byte = slash) (starts : core.head? ≠ some slash) (ends : core.getLast? ≠ some slash) :
    trimSlashes (before ++ (core ++ after)) = core := by
  unfold trimSlashes
  cases core with
  | nil =>
    have all : ∀ byte ∈ before ++ after, byte = slash := by
      intro byte member
      rcases List.mem_append.mp member with member | member
      · exact front byte member
      · exact back byte member
    have gone := @dropWhile_run _ [] all (by simp)
    rw [List.append_nil] at gone
    rw [List.nil_append, gone]
    rfl
  | cons byte core =>
    rw [dropWhile_run front (by simpa using starts), List.reverse_append,
      dropWhile_run (fun other member => back other (List.mem_reverse.mp member)) (by rw [List.head?_reverse]; exact ends),
      List.reverse_reverse]

/-- Segments that name something are split off the path, with or without a slash at its end. -/
theorem splitPath_spec {segments : List (List Nat)} (named : ∀ segment ∈ segments, segment ≠ [] ∧ slash ∉ segment)
    {after : List Nat} (back : ∀ byte ∈ after, byte = slash) :
    splitPath (slash :: ([slash].intercalate (instancesBytes :: segments) ++ after)) = segments := by
  have plain : instancesBytes ≠ [] ∧ slash ∉ instancesBytes := by decide
  have whole : ∀ segment ∈ instancesBytes :: segments, segment ≠ [] ∧ slash ∉ segment := by
    intro segment member
    rcases List.mem_cons.mp member with rfl | member
    · exact plain
    · exact named segment member
  have front : ∀ byte ∈ [slash], byte = slash := fun byte member => List.mem_singleton.mp member
  have trimmed := trimSlashes_run front back (head_intercalate whole) (getLast_intercalate whole)
  rw [List.singleton_append] at trimmed
  unfold splitPath
  dsimp only
  rw [trimmed]
  cases segments with
  | nil => decide
  | cons segment segments =>
    have cut : trimInstances ([slash].intercalate (instancesBytes :: segment :: segments)) =
        slash :: [slash].intercalate (segment :: segments) := by
      rw [List.intercalate_cons_cons, trimInstances, List.append_assoc, if_pos (by simp), List.drop_left]
      rfl
    have rest := @trimSlashes_run _ _ [] front (fun _ member => absurd member List.not_mem_nil) (head_intercalate named)
      (getLast_intercalate named)
    rw [List.append_nil, List.singleton_append] at rest
    have some : [slash].intercalate (segment :: segments) ≠ [] := by
      intro empty
      have split := List.splitOn_intercalate slash (fun other member => (named other member).2) (List.cons_ne_nil segment segments)
      rw [empty, List.splitOn_nil] at split
      exact (named segment List.mem_cons_self).1 (List.cons.inj split).1.symm
    rw [cut, rest, if_neg some,
      List.splitOn_intercalate slash (fun other member => (named other member).2) (List.cons_ne_nil _ _)]

theorem percentDecode_join (texts : List (List Char)) :
    percentDecode (['/'].intercalate (texts.map encodeChars)) = some ([slash].intercalate (texts.map toUtf8)) := by
  induction texts with
  | nil => rfl
  | cons text texts ih =>
    cases texts with
    | nil =>
      have whole := percentDecode_encodeChars text []
      rw [List.append_nil] at whole
      simpa [percentDecode] using whole
    | cons next texts =>
      rw [List.map_cons, List.map_cons, List.intercalate_cons_cons, List.append_assoc, percentDecode_encodeChars,
        List.singleton_append, percentDecode_plain (by decide), ← List.map_cons, ih]
      simp [List.intercalate_cons_cons, slash, utf8Bytes]

/-! ### The mux -/

theorem encodeChars_proper {text : List Char} (named : text ≠ []) (plain : ¬ DotSegment text) :
    ProperPart (encodeChars text) := by
  refine ⟨fun empty => named (encodeChars_eq_nil (by rw [empty]; rfl)), fun dot => plain (Or.inl ?_),
    fun up => plain (Or.inr ?_), slash_not_mem_encodeChars text⟩
  · exact isSingleDot_encodeChars.mp (by rw [dot]; decide)
  · exact isDoubleDot_encodeChars.mp (by rw [up]; decide)

theorem muxCleanPath_proper {parts after : List (List Char)} (proper : ∀ part ∈ parts, ProperPart part) (some : parts ≠ [])
    (back : after = [] ∨ after = [[]]) :
    muxCleanPath ('/' :: joinParts (parts ++ after)) = '/' :: joinParts (parts ++ after) := by
  have rooted : (String.ofList ('/' :: joinParts (parts ++ after))).toList.head? = Option.some '/' := by
    rw [String.toList_ofList]
    rfl
  have named : joinParts parts ≠ [] := fun empty => some (joinParts_eq_nil proper empty)
  unfold muxCleanPath
  dsimp only
  rw [Ingest.cleanPath_rooted rooted, String.toList_ofList]
  rcases back with rfl | rfl
  · have last : ('/' :: joinParts parts).getLast? ≠ Option.some '/' := by
      rw [← List.singleton_append, List.getLast?_append_of_ne_nil _ named]
      exact getLast_intercalate fun part member => ⟨(proper part member).1, (proper part member).2.2.2⟩
    rw [List.append_nil, cleanParts_rooted proper, if_neg fun both => last both.1]
  · have joined : joinParts (parts ++ [[]]) = joinParts parts ++ ['/'] := by
      rw [joinParts_append some (by simp)]
      rfl
    have cleaned : cleanParts ('/' :: joinParts (parts ++ [[]])) = parts := by
      rw [joined, ← List.cons_append, cleanParts, List.splitOn_append_cons_self, List.foldl_append]
      exact cleanParts_rooted proper
    have last : ('/' :: joinParts (parts ++ [[]])).getLast? = Option.some '/' := by
      rw [joined, ← List.cons_append, List.getLast?_append]
      rfl
    rw [cleaned, if_pos ⟨last, by simpa using named⟩, joined, List.cons_append]

/-- Segments that are no dots and hold no slash are read back as they are. -/
theorem read_join {name : List Char} {texts after : List (List Char)}
    (plain : ∀ text ∈ name :: texts, text ≠ [] ∧ '/' ∉ text ∧ ¬ DotSegment text) (back : after = [] ∨ after = [[]]) :
    let path := '/' :: ['/'].intercalate ((name :: texts ++ after).map encodeChars)
    muxCleanPath path = path ∧ ((path.drop 1).splitOn '/').head?.bind percentDecode = some (toUtf8 name) ∧
      ∃ bytes, (∀ byte ∈ bytes, byte = slash) ∧
        percentDecode path = some (slash :: ([slash].intercalate ((name :: texts).map toUtf8) ++ bytes)) := by
  have proper : ∀ part ∈ (name :: texts).map encodeChars, ProperPart part := by
    intro part member
    obtain ⟨text, inside, rfl⟩ := List.mem_map.mp member
    exact encodeChars_proper (plain text inside).1 (plain text inside).2.2
  have empties : after.map encodeChars = after := by
    rcases back with rfl | rfl <;> rfl
  have known : percentDecode (encodeChars name) = some (toUtf8 name) := by
    have whole := percentDecode_encodeChars name []
    rwa [List.append_nil, percentDecode, Option.map_some, List.append_nil] at whole
  refine ⟨?_, ?_, ?_⟩
  · rw [List.map_append, empties]
    exact muxCleanPath_proper proper (by simp) back
  · have split : (['/'].intercalate ((name :: texts ++ after).map encodeChars)).splitOn '/' =
        (name :: texts ++ after).map encodeChars := by
      refine List.splitOn_intercalate '/' (fun part member => ?_) (by simp)
      obtain ⟨text, -, rfl⟩ := List.mem_map.mp member
      exact slash_not_mem_encodeChars text
    rw [List.drop_succ_cons, List.drop_zero, split, List.cons_append, List.map_cons, List.head?_cons, Option.bind_some, known]
  · rw [percentDecode_plain (by decide), percentDecode_join, Option.map_some]
    rcases back with rfl | rfl
    · exact ⟨[], fun _ member => absurd member List.not_mem_nil, by rw [List.append_nil, List.append_nil]; rfl⟩
    · refine ⟨[slash], fun _ member => List.mem_singleton.mp member, ?_⟩
      rw [List.map_append, intercalate_append (by simp) (by simp)]
      rfl

/-- The handler's segments, for a path whose first segment is any name. -/
theorem instanceSegments_join {name : List Char} {texts after : List (List Char)}
    (plain : ∀ text ∈ name :: texts, text ≠ [] ∧ '/' ∉ text ∧ ¬ DotSegment text) (back : after = [] ∨ after = [[]]) :
    instanceSegments ('/' :: ['/'].intercalate ((name :: texts ++ after).map encodeChars)) =
      if name = "instances".toList then some (texts.map toUtf8) else none := by
  obtain ⟨clean, first, bytes, slashes, decoded⟩ := read_join plain back
  unfold instanceSegments
  rw [if_neg (not_not.mpr clean), first]
  by_cases known : name = "instances".toList
  · have named : ∀ segment ∈ texts.map toUtf8, segment ≠ [] ∧ slash ∉ segment := by
      intro segment member
      obtain ⟨text, inside, rfl⟩ := List.mem_map.mp member
      obtain ⟨nonempty, no_slash, -⟩ := plain text (List.mem_cons_of_mem _ inside)
      exact ⟨fun empty => nonempty (toUtf8_injective empty), fun byte => no_slash (slash_mem_toUtf8.mp byte)⟩
    have same : toUtf8 name = instancesBytes := by rw [known]; rfl
    rw [if_neg (not_not.mpr (congrArg some same)), if_pos known, decoded, Option.map_some, List.map_cons, same,
      splitPath_spec named slashes]
  · have other : some (toUtf8 name) ≠ some instancesBytes := fun same => known (toUtf8_injective (Option.some.inj same))
    rw [if_pos other, if_neg known]

/-- What the handler reads never holds a slash. -/
theorem slash_not_mem_splitPath (path : List Nat) : ∀ segment ∈ splitPath path, slash ∉ segment := by
  unfold splitPath
  dsimp only
  split
  · exact fun _ member => absurd member List.not_mem_nil
  · exact not_mem_splitOn slash _

theorem instanceSegments_root : instanceSegments ['/'] = none := by
  unfold instanceSegments
  split
  · rfl
  · exact if_pos (by decide)

theorem callWorkerPath_eq {segments : List String} (some : segments ≠ []) :
    callWorkerPath segments =
      '/' :: ['/'].intercalate (resolvePath [] ((segments.map String.toList).map encodeChars)) := by
  have encoded : (segments.map fun segment => (encodeURIComponent segment).toList) =
      (segments.map String.toList).map encodeChars := by
    rw [List.map_map]
    exact List.map_congr_left fun segment _ => toList_encodeURIComponent segment
  have plain : ∀ part ∈ (segments.map String.toList).map encodeChars, '/' ∉ part := by
    intro part member
    obtain ⟨text, -, rfl⟩ := List.mem_map.mp member
    exact slash_not_mem_encodeChars text
  unfold callWorkerPath
  dsimp only
  rw [encoded, List.splitOn_intercalate '/' plain (by simpa using some)]

theorem instanceSegments_callWorker {ids : List String} (named : ∀ id ∈ ids, id ≠ "")
    (plain : ∀ id ∈ ids, id ≠ "." ∧ id ≠ ".." ∧ '/' ∉ id.toList) :
    instanceSegments (callWorkerPath ("instances" :: ids)) = some (ids.map fun id => toUtf8 id.toList) := by
  have no_dots : ∀ text ∈ "instances".toList :: ids.map String.toList, text ≠ [] ∧ '/' ∉ text ∧ ¬ DotSegment text := by
    intro text member
    rcases List.mem_cons.mp member with rfl | member
    · refine ⟨by simp, by decide, ?_⟩
      rintro (dot | dots) <;> simp at *
    · obtain ⟨id, inside, rfl⟩ := List.mem_map.mp member
      obtain ⟨no_dot, no_up, no_slash⟩ := plain id inside
      refine ⟨fun empty => named id inside (String.toList_inj.mp empty), no_slash, ?_⟩
      rintro (dot | dots)
      · exact no_dot (String.toList_inj.mp dot)
      · exact no_up (String.toList_inj.mp dots)
  have read := instanceSegments_join no_dots (Or.inl rfl)
  rw [if_pos rfl, List.append_nil, List.map_map] at read
  rw [callWorkerPath_eq (List.cons_ne_nil _ _), List.map_cons,
    resolvePath_plain (List.cons_ne_nil _ _) fun text member => (no_dots text member).2.2, List.nil_append]
  exact read

/-- A group call reaches the handler it names, for the instance and the group it names. -/
theorem workerRoute_group {instanceId groupJid : String}
    (named : ∀ id ∈ [instanceId, groupJid], id ≠ "" ∧ id ≠ "." ∧ id ≠ ".." ∧ '/' ∉ id.toList) :
    workerRoute (callWorkerPath ["instances", instanceId, "groups", groupJid, "info"]) =
        some (.groupInfo (word instanceId) (word groupJid)) ∧
      workerRoute (callWorkerPath ["instances", instanceId, "groups", groupJid, "participants"]) =
        some (.groupParticipants (word instanceId) (word groupJid)) ∧
      workerRoute (callWorkerPath ["instances", instanceId, "groups", groupJid, "admin"]) =
        some (.groupAdmin (word instanceId) (word groupJid)) := by
  obtain ⟨owner, group⟩ : _ ∧ _ := ⟨named instanceId List.mem_cons_self, named groupJid (by simp)⟩
  have bytes : word instanceId ≠ [] ∧ word groupJid ≠ [] :=
    ⟨fun empty => owner.1 (String.toList_inj.mp (toUtf8_injective empty)),
      fun empty => group.1 (String.toList_inj.mp (toUtf8_injective empty))⟩
  have read : ∀ last : String, last ∈ ["info", "participants", "admin"] →
      instanceSegments (callWorkerPath ["instances", instanceId, "groups", groupJid, last]) =
        some [word instanceId, word "groups", word groupJid, word last] := by
    intro last known
    have fine : last ≠ "" ∧ last ≠ "." ∧ last ≠ ".." ∧ '/' ∉ last.toList := by
      simp only [List.mem_cons, List.not_mem_nil, or_false] at known
      rcases known with rfl | rfl | rfl <;> decide
    refine @instanceSegments_callWorker [instanceId, "groups", groupJid, last] ?_ ?_
    · simp [owner.1, group.1, fine.1]
    · simp [owner.2, group.2, fine.2]
  have words : word "participants" ≠ word "info" ∧ word "admin" ≠ word "info" ∧ word "admin" ≠ word "participants" := by
    decide
  unfold workerRoute
  rw [read "info" (by simp), read "participants" (by simp), read "admin" (by simp)]
  simp [handleInstanceSubresource, handleGroupSubresource, bytes, words]

/-- The worker reads back the segments it was called with just when none is a dot segment or holds a slash. -/
theorem worker_segments_iff (ids : List String) (named : ∀ id ∈ ids, id ≠ "") :
    instanceSegments (callWorkerPath ("instances" :: ids)) = some (ids.map fun id => toUtf8 id.toList) ↔
      ∀ id ∈ ids, id ≠ "." ∧ id ≠ ".." ∧ '/' ∉ id.toList := by
  have texts_eq : ids.map (fun id => toUtf8 id.toList) = (ids.map String.toList).map toUtf8 := by
    rw [List.map_map]
    rfl
  have nonempty : ∀ text ∈ ids.map String.toList, text ≠ [] := by
    intro text member empty
    obtain ⟨id, inside, rfl⟩ := List.mem_map.mp member
    exact named id inside (String.toList_inj.mp empty)
  rw [callWorkerPath_eq (List.cons_ne_nil _ _), List.map_cons, texts_eq]
  constructor
  · intro read
    have no_slash : ∀ text ∈ ids.map String.toList, '/' ∉ text := by
      intro text member inside
      unfold instanceSegments at read
      split at read
      · cases read
      · split at read
        · cases read
        · obtain ⟨bytes, -, split⟩ := Option.map_eq_some_iff.mp read
          refine slash_not_mem_splitPath bytes (toUtf8 text) ?_ (slash_mem_toUtf8.mpr inside)
          rw [split]
          exact List.mem_map_of_mem member
    obtain ⟨left, kept, resolved⟩ := @resolvePath_encoded [] _
      (List.cons_ne_nil "instances".toList (ids.map String.toList)) fun _ member => absurd member List.not_mem_nil
    obtain ⟨after, back, resolved⟩ : ∃ after : List (List Char), (after = [] ∨ after = [[]]) ∧
        resolvePath [] (("instances".toList :: ids.map String.toList).map encodeChars) = (left ++ after).map encodeChars := by
      rcases resolved with resolved | resolved
      · exact ⟨[], Or.inl rfl, by rw [List.append_nil]; exact resolved⟩
      · exact ⟨[[]], Or.inr rfl, by rw [List.map_append]; exact resolved⟩
    rw [resolved] at read
    cases left with
    | nil =>
      have root : ['/'].intercalate (([] ++ after).map encodeChars) = [] := by
        rcases back with rfl | rfl <;> rfl
      rw [root, instanceSegments_root] at read
      cases read
    | cons name texts =>
      have plain : ∀ text ∈ name :: texts, text ≠ [] ∧ '/' ∉ text ∧ ¬ DotSegment text := by
        intro text member
        obtain ⟨no_dot, early | inside⟩ := kept text member
        · cases early
        · rcases List.mem_cons.mp inside with rfl | inside
          · exact ⟨by simp, by decide, no_dot⟩
          · exact ⟨nonempty text inside, no_slash text inside, no_dot⟩
      rw [instanceSegments_join plain back] at read
      split at read
      · have same := List.map_injective_iff.mpr toUtf8_injective (Option.some.inj read)
        intro id inside
        have member : id.toList ∈ texts := same ▸ List.mem_map_of_mem inside
        obtain ⟨-, no_slash, no_dot⟩ := plain _ (List.mem_cons_of_mem _ member)
        refine ⟨?_, ?_, no_slash⟩
        · rintro rfl
          exact no_dot (Or.inl rfl)
        · rintro rfl
          exact no_dot (Or.inr rfl)
      · cases read
  · intro plain
    have read := instanceSegments_callWorker named plain
    rwa [callWorkerPath_eq (List.cons_ne_nil _ _), List.map_cons, texts_eq] at read

theorem group_read :
    instanceSegments (callWorkerPath ["instances", "inst", "groups", "1%2F@g.us", "info"]) =
      some (["inst", "groups", "1%2F@g.us", "info"].map fun id => toUtf8 id.toList) :=
  (worker_segments_iff ["inst", "groups", "1%2F@g.us", "info"] (by decide)).mpr (by decide)

/-- A dot segment takes the one before it away, and an encoded slash splits the segment it is in. -/
theorem group_escapes :
    String.ofList (callWorkerPath ["instances", "inst", "groups", "..", "info"]) = "/instances/inst/info" ∧
      instanceSegments (callWorkerPath ["instances", "a/groups"]) = some (["a", "groups"].map fun id => toUtf8 id.toList) ∧
      instanceSegments (callWorkerPath ["instances", "a/groups"]) ≠ some (["a/groups"].map fun id => toUtf8 id.toList) := by
  have path : callWorkerPath ["instances", "a/groups"] = "/instances/a%2Fgroups".toList := by decide
  have clean : muxCleanPath "/instances/a%2Fgroups".toList = "/instances/a%2Fgroups".toList := by decide
  have decoded : percentDecode "/instances/a%2Fgroups".toList = some (toUtf8 "/instances/a/groups".toList) := by
    simp [percentDecode, hexValue?, utf8Bytes, toUtf8]
  have first : (("/instances/a%2Fgroups".toList.drop 1).splitOn '/').head? = some "instances".toList := by decide
  have known : percentDecode "instances".toList = some instancesBytes := by
    simp [percentDecode, utf8Bytes, toUtf8, instancesBytes]
  have read : instanceSegments (callWorkerPath ["instances", "a/groups"]) =
      some (["a", "groups"].map fun id => toUtf8 id.toList) := by
    rw [path, instanceSegments, if_neg (not_not.mpr clean), first, Option.bind_some, known, if_neg (not_not.mpr rfl),
      decoded, Option.map_some]
    exact congrArg some (by decide)
  refine ⟨by decide, read, ?_⟩
  rw [read]
  decide

end GroupButler.Groups
