import GroupButler.Foundation.Path
import GroupButler.Ingest.Attachment

/-!
# Where an attachment is read

The bridge reports a path inside its container. `hostPath` cleans it, asks for the container's data
directory in front of it, and remaps it onto the directory the volume is mounted at.
-/

namespace GroupButler.Ingest
open Foundation

/-! ### Cleaning -/

theorem cleanPath_eq (path : String) :
    cleanPath path =
      let rooted := path.toList.head? == some '/'
      let body := String.ofList (joinParts ((path.toList.splitOn '/').foldl (cleanStep rooted) []))
      if rooted then "/" ++ body else if body = "" then "." else body := rfl

theorem cleanPath_rooted {path : String} (rooted : path.toList.head? = some '/') :
    (cleanPath path).toList = '/' :: joinParts (cleanParts path.toList) := by
  rw [cleanPath_eq]
  simp only [rooted, beq_self_eq_true, if_true]
  rw [String.toList_append, String.toList_ofList, String.toList_ofList]
  rfl

/-- A path that cleans to a rooted one is rooted. -/
theorem rooted_of_cleanPath {path : String} (rooted : (cleanPath path).toList.head? = some '/') :
    path.toList.head? = some '/' := by
  by_contra relative
  have closed : (path.toList.head? == some '/') = false := by simpa using relative
  rw [cleanPath_eq] at rooted
  simp only [closed, Bool.false_eq_true, if_false] at rooted
  split at rooted
  · simp at rooted
  · rw [String.toList_ofList] at rooted
    refine head_intercalate (fun part member => ?_) rooted
    rcases mem_foldl_cleanStep member with member | ⟨member, named⟩
    · cases member
    · exact ⟨named, not_mem_splitOn '/' _ part member⟩

/-! ### The two roots -/

/-- `newExternalIngest`'s reading of `HERMES_DATA_DIR`. -/
def newDataDir (configured : String) : String :=
  let dir := goTrimSpace configured
  if dir.toList.getLast? = some '/' then String.ofList dir.toList.dropLast else dir

/-- No directory, or an absolute one that is not the root of the file system. -/
def ConfiguredDir (configured : String) : Prop :=
  goTrimSpace configured = "" ∨ (goTrimSpace configured).toList.head? = some '/' ∧ goTrimSpace configured ≠ "/"

instance (configured : String) : Decidable (ConfiguredDir configured) := by
  unfold ConfiguredDir
  infer_instance

/-- The directory the attachments are below, as this process sees it. -/
def hostRoot (dataDir : String) : String := if dataDir = "" then hermesContainerDataDir else cleanPath dataDir

def containerParts : List (List Char) := ["opt".toList, "data".toList]

theorem containerParts_proper : ∀ part ∈ containerParts, ProperPart part := by decide

theorem hermesContainerDataDir_parts : hermesContainerDataDir.toList = '/' :: joinParts containerParts := by decide

theorem newDataDir_absolute {configured : String} (configuredDir : ConfiguredDir configured) :
    newDataDir configured = "" ∨ (newDataDir configured).toList.head? = some '/' := by
  unfold newDataDir
  dsimp only
  rcases configuredDir with none | ⟨absolute, lower⟩
  · rw [none]
    exact Or.inl rfl
  · obtain ⟨rest, whole⟩ : ∃ rest, (goTrimSpace configured).toList = '/' :: rest :=
      ⟨_, (List.eq_cons_of_mem_head? absolute)⟩
    have more : rest ≠ [] := by
      rintro rfl
      exact lower (String.toList_inj.mp whole)
    right
    split
    · obtain ⟨next, rest, rfl⟩ := List.exists_cons_of_ne_nil more
      rw [String.toList_ofList, whole]
      rfl
    · exact absolute

/-! ### What is accepted -/

/-- A cleaned path with the container's directory in front has something below it. -/
theorem cleaned_below {path : String} (below : (hermesContainerDataDir ++ "/").toList.isPrefixOf (cleanPath path).toList) :
    ∃ rel, rel ≠ [] ∧ (∀ part ∈ rel, ProperPart part) ∧
      (cleanPath path).toList = '/' :: joinParts (containerParts ++ rel) := by
  obtain ⟨rest, whole⟩ := List.isPrefixOf_iff_prefix.mp below
  have rooted : (cleanPath path).toList.head? = some '/' := by
    rw [← whole]
    rfl
  have parts_eq := cleanPath_rooted (rooted_of_cleanPath rooted)
  have proper := cleanParts_proper path.toList
  generalize cleanParts path.toList = parts at parts_eq proper
  have spelled : joinParts parts = "opt".toList ++ '/' :: ("data".toList ++ '/' :: rest) := by
    rw [parts_eq] at whole
    exact (List.cons.inj whole).2.symm
  have some : parts ≠ [] := by
    rintro rfl
    cases spelled
  have split : parts = containerParts ++ rest.splitOn '/' := by
    rw [← splitOn_joinParts proper some, spelled, List.splitOn_append_cons_self_of_not_mem (by decide),
      List.splitOn_append_cons_self_of_not_mem (by decide)]
    rfl
  refine ⟨rest.splitOn '/', List.splitOn_ne_nil _ _, fun part member => proper part ?_, ?_⟩
  · rw [split]
    exact List.mem_append_right _ member
  · rw [parts_eq, split]

/-- The remapped path: the parts of the host directory, then those below the container's. -/
theorem remapped {dataDir : String} (absolute : dataDir.toList.head? = some '/') {rel : List (List Char)}
    (some : rel ≠ []) (proper : ∀ part ∈ rel, ProperPart part) :
    (cleanPath (dataDir ++ String.ofList ('/' :: joinParts rel))).toList =
      joinBelow (cleanPath dataDir).toList (joinParts rel) := by
  have joined : (dataDir ++ String.ofList ('/' :: joinParts rel)).toList = dataDir.toList ++ '/' :: joinParts rel := by
    rw [String.toList_append, String.toList_ofList]
  have rooted : (dataDir ++ String.ofList ('/' :: joinParts rel)).toList.head? = Option.some '/' := by
    rw [joined]
    exact List.mem_head?_append_of_mem_head? absolute
  rw [cleanPath_rooted rooted, cleanPath_rooted absolute, joined, cleanParts_join _ proper some,
    joinBelow_rooted (cleanParts_proper _) some]

theorem hostRoot_parts {dataDir : String} (dir : dataDir = "" ∨ dataDir.toList.head? = some '/') :
    ∃ parts, (∀ part ∈ parts, ProperPart part) ∧ (hostRoot dataDir).toList = '/' :: joinParts parts := by
  unfold hostRoot
  split
  · exact ⟨containerParts, containerParts_proper, hermesContainerDataDir_parts⟩
  · rename_i named
    exact ⟨cleanParts dataDir.toList, cleanParts_proper _, cleanPath_rooted (dir.resolve_left named)⟩

/-- The one thing `hostPath` does: the parts below the container's directory, below the host's. -/
theorem hostPath_spec [GoLibrary] {dataDir raw : String} (dir : dataDir = "" ∨ dataDir.toList.head? = some '/')
    {rel : List (List Char)} (some : rel ≠ []) (proper : ∀ part ∈ rel, ProperPart part)
    (cleaned : (cleanPath (goTrimSpace raw)).toList = '/' :: joinParts (containerParts ++ rel)) :
    hostPath dataDir raw = .ok (String.ofList (joinBelow (hostRoot dataDir).toList (joinParts rel))) := by
  have split : (cleanPath (goTrimSpace raw)).toList = hermesContainerDataDir.toList ++ '/' :: joinParts rel := by
    rw [cleaned, joinParts_append (by decide) some, hermesContainerDataDir_parts]
    rfl
  have below : (hermesContainerDataDir ++ "/").toList.isPrefixOf (cleanPath (goTrimSpace raw)).toList = true := by
    rw [List.isPrefixOf_iff_prefix, split]
    exact ⟨joinParts rel, by rw [String.toList_append, List.append_assoc]; rfl⟩
  unfold hostPath hostRoot
  dsimp only
  rw [if_pos below]
  by_cases unset : dataDir = ""
  · rw [if_pos unset, if_pos unset]
    refine congrArg Except.ok (String.toList_inj.mp ?_)
    rw [String.toList_ofList, split, joinBelow, if_neg (by decide)]
  · rw [if_neg unset, if_neg unset]
    have suffix : (cleanPath (goTrimSpace raw)).toList.drop hermesContainerDataDir.length = '/' :: joinParts rel := by
      rw [split, ← String.length_toList, List.drop_left]
    refine congrArg Except.ok (String.toList_inj.mp ?_)
    rw [suffix, remapped (dir.resolve_left unset) some proper, String.toList_ofList]

/-- What `hostPath` returns is below the root, and a clean path below the container's directory that does not end in
white space maps to the same path below the root. -/
theorem hostPath_below_root [GoLibrary] (configured : String) (dir : ConfiguredDir configured) :
    (∀ raw path, hostPath (newDataDir configured) raw = .ok path →
      Below (hostRoot (newDataDir configured)).toList path.toList ∧ path ≠ hostRoot (newDataDir configured) ∧
        ['.', '.'] ∉ path.toList.splitOn '/') ∧
    ∀ rel : String, CleanBelow rel.toList → (∀ c ∈ rel.toList.getLast?, isGoSpace c = false) →
      hostPath (newDataDir configured) (hermesContainerDataDir ++ "/" ++ rel) =
        .ok (String.ofList (joinBelow (hostRoot (newDataDir configured)).toList rel.toList)) := by
  have absolute := newDataDir_absolute dir
  generalize newDataDir configured = dataDir at absolute
  obtain ⟨rootParts, rootProper, rootSpelled⟩ := hostRoot_parts absolute
  constructor
  · intro raw path accepted
    by_cases inside : (hermesContainerDataDir ++ "/").toList.isPrefixOf (cleanPath (goTrimSpace raw)).toList = true
    · obtain ⟨rel, some, proper, cleaned⟩ := cleaned_below inside
      rw [hostPath_spec absolute some proper cleaned] at accepted
      obtain rfl := Except.ok.inj accepted
      rw [String.toList_ofList]
      have below : Below (hostRoot dataDir).toList (joinBelow (hostRoot dataDir).toList (joinParts rel)) :=
        ⟨joinParts rel, CleanBelow.joinParts proper some, rfl⟩
      refine ⟨below, fun same => below.ne ?_, ?_⟩
      · exact String.toList_ofList.symm.trans (congrArg String.toList same)
      · have whole : ∀ part ∈ rootParts ++ rel, ProperPart part := by
          intro part member
          rcases List.mem_append.mp member with member | member
          · exact rootProper part member
          · exact proper part member
        rw [rootSpelled, joinBelow_rooted rootProper some]
        intro climbs
        have split := List.splitOn_append_cons_self_of_not_mem (a := '/') List.not_mem_nil (joinParts (rootParts ++ rel))
        rw [List.nil_append, splitOn_joinParts whole (by simp [some])] at split
        rw [split] at climbs
        rcases List.mem_cons.mp climbs with climbs | climbs
        · cases climbs
        · exact (whole _ climbs).2.2.1 rfl
    · unfold hostPath at accepted
      dsimp only at accepted
      rw [if_neg inside] at accepted
      cases accepted
  · intro rel clean visible
    obtain ⟨parts, some, proper, spelled⟩ := clean.parts
    have whole : (hermesContainerDataDir ++ "/" ++ rel).toList = hermesContainerDataDir.toList ++ '/' :: rel.toList := by
      rw [String.toList_append, String.toList_append, List.append_assoc]
      rfl
    have trimmed : goTrimSpace (hermesContainerDataDir ++ "/" ++ rel) = hermesContainerDataDir ++ "/" ++ rel := by
      refine trimChars_of_ends ?_ ?_
      · rw [whole]
        rintro c ⟨⟩
        decide
      · have named : rel.toList ≠ [] := by
          intro empty
          rw [empty] at clean
          exact (clean [] (by simp)).1 rfl
        obtain ⟨next, rest, shape⟩ := List.exists_cons_of_ne_nil named
        rw [whole, List.getLast?_append, shape, List.getLast?_cons_cons, ← shape]
        intro c last
        refine visible c ?_
        cases found : rel.toList.getLast? with
        | none => exact absurd (List.getLast?_eq_none_iff.mp found) named
        | some d =>
          rw [found] at last
          exact last
    have rooted : (hermesContainerDataDir ++ "/" ++ rel).toList.head? = Option.some '/' := by
      rw [whole]
      rfl
    have cleaned : (cleanPath (hermesContainerDataDir ++ "/" ++ rel)).toList = '/' :: joinParts (containerParts ++ parts) := by
      rw [cleanPath_rooted rooted, whole, spelled, cleanParts_join _ proper some, hermesContainerDataDir_parts,
        cleanParts_rooted containerParts_proper]
    rw [hostPath_spec absolute some proper (by rw [trimmed]; exact cleaned), spelled]

/-- A path in a deployment's own words. -/
theorem hostPath_below_srv :
    let _ : GoLibrary := ⟨id, fun _ => ""⟩
    hostPath (newDataDir " /srv/hermes/ ") "/opt/data/x/../cache/a.jpg" = .ok "/srv/hermes/cache/a.jpg" ∧
      Below "/srv/hermes".toList "/srv/hermes/cache/a.jpg".toList := by
  intro library
  have read : hostPath (newDataDir " /srv/hermes/ ") "/opt/data/x/../cache/a.jpg" = .ok "/srv/hermes/cache/a.jpg" := by decide
  exact ⟨read, ((hostPath_below_root " /srv/hermes/ " (by decide)).1 _ _ read).1⟩

/-- The white space at the end of a name is trimmed with the rest. -/
theorem hostPath_trims_name :
    let _ : GoLibrary := ⟨id, fun _ => ""⟩
    ConfiguredDir "/srv" ∧ CleanBelow "a ".toList ∧
      hostPath (newDataDir "/srv") (hermesContainerDataDir ++ "/" ++ "a ") ≠
        .ok (String.ofList (joinBelow (hostRoot (newDataDir "/srv")).toList "a ".toList)) := by
  intro library
  exact ⟨by decide, by decide, by decide⟩

end GroupButler.Ingest
