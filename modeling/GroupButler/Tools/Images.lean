import GroupButler.Foundation.Objects

/-!
# Images in a tool's answer

A document's image fields are taken out of it, at any depth: each one's text becomes a note, its data goes
along as an image.
-/

namespace GroupButler.Tools
open Foundation

/-- `toolResultText`: the text blocks of a tool's content, joined. -/
def toolResultText (content : JsonValue) : List Char :=
  match content with
  | .arr blocks => List.intercalate ['\n'] (blocks.filterMap fun block =>
      match block.field "type", block.field "text" with
      | some (.str type), some (.str text) => if type = "text".toList then some text else none
      | _, _ => none)
  | _ => []

structure LiftedImage where
  mediaType : List Char
  data : List Char
  deriving DecidableEq, Repr

structure BridgedToolResult where
  text : List Char
  images : List LiftedImage
  deriving DecidableEq, Repr

def lineTerminators : List Char := ['\n', '\r', '\u2028', '\u2029']

/-- `/^data:([^;,]+);base64,(.+)$/u`. What precedes the first `;` or `,` has to be followed by it. -/
def dataUrl (value : List Char) : Option LiftedImage :=
  (value.dropPrefix? "data:".toList).bind fun rest =>
    let mediaType := rest.takeWhile fun c => c != ';' && c != ','
    ((rest.drop mediaType.length).dropPrefix? ";base64,".toList).bind fun data =>
      if mediaType ≠ [] ∧ data ≠ [] ∧ (data.all fun c => !lineTerminators.contains c) then some ⟨mediaType, data⟩ else none

def dataUrlKey : List Char := "dataUrl".toList

def imageDataUrlKey : List Char := "imageDataUrl".toList

/-- Assigning to this key sets an object's prototype, which is never written. -/
def protoKey : List Char := "__proto__".toList

def imageNote (mediaType : List Char) : List Char := "<image: ".toList ++ mediaType ++ ", sent to you as an image>".toList

/-- The image a field is, if it is one. -/
def imageIn (key : List Char) : JsonValue → Option LiftedImage
  | .str value => if key = dataUrlKey ∨ key = imageDataUrlKey then dataUrl value else none
  | _ => none

/-- `entries[key] = value`, in front of the later ones. -/
def setEntry (key : List Char) (value : JsonValue) (entries : List (List Char × JsonValue)) : List (List Char × JsonValue) :=
  if key = protoKey then entries else (key, value) :: entries

mutual

/-- `walk`: what a node is replaced by, and the images pushed on the way. -/
def walk : JsonValue → JsonValue × List LiftedImage
  | .arr items => (.arr (walkItems items).1, (walkItems items).2)
  | .obj fields => (.obj (walkFields fields).1, (walkFields fields).2)
  | .null => (.null, [])
  | .bool b => (.bool b, [])
  | .num d => (.num d, [])
  | .str cs => (.str cs, [])

def walkItems : List JsonValue → List JsonValue × List LiftedImage
  | [] => ([], [])
  | item :: items => ((walk item).1 :: (walkItems items).1, (walk item).2 ++ (walkItems items).2)

def walkFields : List (List Char × JsonValue) → List (List Char × JsonValue) × List LiftedImage
  | [] => ([], [])
  | (key, value) :: fields =>
    match imageIn key value with
    | some image => ((key, .str (imageNote image.mediaType)) :: (walkFields fields).1, image :: (walkFields fields).2)
    | none => (setEntry key (walk value).1 (walkFields fields).1, (walk value).2 ++ (walkFields fields).2)

end

section
variable (numbers : Numbers)

def liftImages (raw : List Char) : BridgedToolResult :=
  if raw.head? = some '{' then
    match jsonParse numbers raw with
    | none => ⟨raw, []⟩
    | some parsed => ⟨(walk parsed).1.text numbers, (walk parsed).2⟩
  else ⟨raw, []⟩

end

/-! ### Documents -/

inductive Step where
  | key (key : List Char)
  | index (i : Nat)
  deriving DecidableEq, Repr

/-- What stands at one place of a document, apart from what stands below. -/
inductive Node where
  | null
  | bool (value : Bool)
  | num (value : Decimal)
  | str (text : List Char)
  | arr (length : Nat)
  | obj (keys : List (List Char))
  deriving DecidableEq, Repr

def nodeOf : JsonValue → Node
  | .null => .null
  | .bool b => .bool b
  | .num d => .num d
  | .str cs => .str cs
  | .arr items => .arr items.length
  | .obj fields => .obj (fields.map Prod.fst)

def childOf : JsonValue → Step → Option JsonValue
  | .arr items, .index i => items[i]?
  | .obj fields, .key key => (fields.find? fun field => field.1 = key).map Prod.snd
  | _, _ => none

def valueAt (v : JsonValue) : List Step → Option JsonValue
  | [] => some v
  | step :: path => (childOf v step).bind fun child => valueAt child path

/-- The image a value is under a step, if it is one. -/
def imageUnder (step : Option Step) (v : JsonValue) : Option LiftedImage :=
  match step with
  | some (.key key) => imageIn key v
  | _ => none

/-- What the model reads in the place of a value: the last step there decides whether it is an image. -/
def noted (last : Option Step) (v : JsonValue) : Node :=
  match imageUnder last v with
  | some image => .str (imageNote image.mediaType)
  | none =>
    match nodeOf v with
    | .obj keys => .obj (keys.filter fun key => key ≠ protoKey)
    | node => node

mutual

/-- The strings of a document and their paths, in the order of the document. -/
def strings : JsonValue → List (List Step × List Char)
  | .str cs => [([], cs)]
  | .arr items => stringsItems 0 items
  | .obj fields => stringsFields fields
  | .null => []
  | .bool _ => []
  | .num _ => []

def stringsItems (n : Nat) : List JsonValue → List (List Step × List Char)
  | [] => []
  | item :: items => (strings item).map (fun found => (.index n :: found.1, found.2)) ++ stringsItems (n + 1) items

def stringsFields : List (List Char × JsonValue) → List (List Step × List Char)
  | [] => []
  | (key, value) :: fields => (strings value).map (fun found => (.key key :: found.1, found.2)) ++ stringsFields fields

end

/-- The images of a document, in its order. -/
def imagesOf (v : JsonValue) : List LiftedImage := (strings v).filterMap fun found => imageUnder found.1.getLast? (.str found.2)

/-! ### Notes are no images -/

theorem dataUrl_note (mediaType : List Char) : dataUrl (imageNote mediaType) = none := by
  have other : (imageNote mediaType).dropPrefix? "data:".toList = none := rfl
  rw [dataUrl, other, Option.bind_none]

theorem imageIn_note (key mediaType : List Char) : imageIn key (.str (imageNote mediaType)) = none := by
  rw [imageIn]
  split
  · exact dataUrl_note mediaType
  · rfl

theorem imageIn_key {key : List Char} {value : JsonValue} {image : LiftedImage} (found : imageIn key value = some image) :
    key ≠ protoKey ∧ ∃ cs, value = .str cs := by
  cases value with
  | str cs =>
    rw [imageIn] at found
    split at found
    · rename_i named
      refine ⟨?_, cs, rfl⟩
      rcases named with rfl | rfl <;> decide
    · cases found
  | _ => cases found

theorem walk_str_iff {v : JsonValue} {cs : List Char} : (walk v).1 = .str cs ↔ v = .str cs := by
  cases v <;> simp [walk]

/-- What is no image is none after the walk. -/
theorem imageIn_walk {key : List Char} {value : JsonValue} (plain : imageIn key value = none) :
    imageIn key (walk value).1 = none := by
  cases value with
  | str cs => exact plain
  | _ => rfl

section
variable {key : List Char} {value : JsonValue} {fields : List (List Char × JsonValue)}

theorem walkFields_image {image : LiftedImage} (found : imageIn key value = some image) :
    walkFields ((key, value) :: fields) =
      ((key, .str (imageNote image.mediaType)) :: (walkFields fields).1, image :: (walkFields fields).2) := by
  rw [walkFields, found]

theorem walkFields_plain (plain : imageIn key value = none) :
    walkFields ((key, value) :: fields) =
      (setEntry key (walk value).1 (walkFields fields).1, (walk value).2 ++ (walkFields fields).2) := by
  rw [walkFields, plain]

end

/-! ### One walk is enough -/

mutual

theorem walk_walk : (v : JsonValue) → walk (walk v).1 = ((walk v).1, [])
  | .null => rfl
  | .bool _ => rfl
  | .num _ => rfl
  | .str _ => rfl
  | .arr items => by rw [walk, walk, walkItems_walkItems items]
  | .obj fields => by rw [walk, walk, walkFields_walkFields fields]

theorem walkItems_walkItems : (items : List JsonValue) → walkItems (walkItems items).1 = ((walkItems items).1, [])
  | [] => rfl
  | item :: items => by
    rw [walkItems]
    dsimp only
    rw [walkItems, walk_walk item, walkItems_walkItems items]
    rfl

theorem walkFields_walkFields :
    (fields : List (List Char × JsonValue)) → walkFields (walkFields fields).1 = ((walkFields fields).1, [])
  | [] => rfl
  | (key, value) :: fields => by
    have later := walkFields_walkFields fields
    cases found : imageIn key value with
    | some image =>
      rw [walkFields_image found]
      dsimp only
      rw [walkFields_plain (imageIn_note _ _), later, setEntry, if_neg (imageIn_key found).1]
      rfl
    | none =>
      rw [walkFields_plain found]
      dsimp only
      by_cases proto : key = protoKey
      · rw [setEntry, if_pos proto, later]
      · rw [setEntry, if_neg proto, walkFields_plain (imageIn_walk found), walk_walk value, later, setEntry, if_neg proto]
        rfl

end

/-! ### What stands where -/

theorem childOf_walkItems (items : List JsonValue) (i : Nat) :
    (walkItems items).1[i]? = items[i]?.map fun item => (walk item).1 := by
  induction items generalizing i with
  | nil => rfl
  | cons item items ih =>
    cases i with
    | zero => rfl
    | succ i => exact ih i

/-- What a value is replaced by under a step. -/
def shownUnder (step : Option Step) (v : JsonValue) : JsonValue :=
  match imageUnder step v with
  | some image => .str (imageNote image.mediaType)
  | none => (walk v).1

theorem find_walkFields (fields : List (List Char × JsonValue)) (key : List Char) :
    ((walkFields fields).1.find? fun field => field.1 = key).map Prod.snd =
      if key = protoKey then none
      else ((fields.find? fun field => field.1 = key).map Prod.snd).map (shownUnder (some (.key key))) := by
  induction fields with
  | nil => simp [walkFields]
  | cons field fields ih =>
    obtain ⟨other, value⟩ := field
    cases found : imageIn other value with
    | some image =>
      rw [walkFields_image found]
      have ordinary := (imageIn_key found).1
      by_cases same : other = key
      · subst same
        simp [ordinary, shownUnder, imageUnder, found]
      · simp only [List.find?_cons, same, decide_false]
        exact ih
    | none =>
      rw [walkFields_plain found]
      by_cases proto : other = protoKey
      · simp only [setEntry, if_pos proto]
        rw [ih]
        by_cases same : key = protoKey
        · rw [if_pos same, if_pos same]
        · have differs : other ≠ key := fun equal => same (equal ▸ proto)
          simp [same, differs]
      · simp only [setEntry, if_neg proto]
        by_cases same : other = key
        · subst same
          simp [proto, shownUnder, imageUnder, found]
        · simp only [List.find?_cons, same, decide_false]
          exact ih

theorem walkFields_keys (fields : List (List Char × JsonValue)) :
    (walkFields fields).1.map Prod.fst = (fields.map Prod.fst).filter fun key => key ≠ protoKey := by
  induction fields with
  | nil => rfl
  | cons field fields ih =>
    obtain ⟨key, value⟩ := field
    cases found : imageIn key value with
    | some image =>
      have ordinary := (imageIn_key found).1
      rw [walkFields_image found]
      simp [ordinary, ih]
    | none =>
      rw [walkFields_plain found]
      by_cases proto : key = protoKey
      · simp [setEntry, proto, ih]
      · simp [setEntry, proto, ih]

theorem walkItems_length (items : List JsonValue) : (walkItems items).1.length = items.length := by
  induction items with
  | nil => rfl
  | cons item items ih =>
    rw [walkItems, List.length_cons, List.length_cons, ih]

theorem nodeOf_shownUnder (step : Option Step) (v : JsonValue) : nodeOf (shownUnder step v) = noted step v := by
  unfold shownUnder noted
  cases imageUnder step v with
  | some image => rfl
  | none =>
    cases v with
    | arr items => exact congrArg Node.arr (walkItems_length items)
    | obj fields => exact congrArg Node.obj (walkFields_keys fields)
    | _ => rfl

theorem childOf_shownUnder (last : Option Step) (v : JsonValue) (step : Step) :
    childOf (shownUnder last v) step =
      if step = .key protoKey then none else (childOf v step).map (shownUnder (some step)) := by
  unfold shownUnder
  cases found : imageUnder last v with
  | some image =>
    have text : ∃ cs, v = .str cs := by
      unfold imageUnder at found
      split at found
      · exact (imageIn_key found).2
      · cases found
    obtain ⟨cs, rfl⟩ := text
    simp [childOf]
  | none =>
    cases v with
    | arr items =>
      cases step with
      | key key => simp [walk, childOf]
      | index i =>
        rw [if_neg (by simp)]
        exact childOf_walkItems items i
    | obj fields =>
      cases step with
      | index i => simp [walk, childOf]
      | key key =>
        have child := find_walkFields fields key
        by_cases proto : key = protoKey
        · rw [if_pos proto] at child
          rw [if_pos (by rw [proto])]
          exact child
        · rw [if_neg proto] at child
          rw [if_neg (by simpa using proto)]
          exact child
    | _ => simp [walk, childOf]

theorem valueAt_shownUnder (last : Option Step) (v : JsonValue) (path : List Step) :
    (valueAt (shownUnder last v) path).map nodeOf =
      if Step.key protoKey ∈ path then none else (valueAt v path).map (noted (path.getLast?.or last)) := by
  induction path generalizing last v with
  | nil => simp [valueAt, nodeOf_shownUnder]
  | cons step path ih =>
    rw [valueAt, valueAt, childOf_shownUnder]
    by_cases proto : step = .key protoKey
    · rw [if_pos proto, if_pos (by simp [proto])]
      rfl
    · have last_ : ((step :: path).getLast?.or last) = path.getLast?.or (some step) := by
        rw [List.getLast?_cons]
        cases path.getLast? <;> rfl
      rw [if_neg proto, last_]
      cases childOf v step with
      | none => simp
      | some child =>
        simp only [Option.map_some, Option.bind_some, ih, List.mem_cons, Ne.symm proto, false_or]

/-! ### The images -/

theorem imageUnder_last (path : List Step) (last : Option Step) (cs : List Char) (step : Step) :
    imageUnder ((step :: path).getLast?.or last) (.str cs) = imageUnder (path.getLast?.or (some step)) (.str cs) := by
  rw [List.getLast?_cons]
  cases path.getLast? <;> rfl

/-- The images among the strings of a value that stands under a step. -/
def imagesUnder (last : Option Step) (found : List (List Step × List Char)) : List LiftedImage :=
  found.filterMap fun found => imageUnder (found.1.getLast?.or last) (.str found.2)

theorem imagesUnder_step (last : Option Step) (step : Step) (found : List (List Step × List Char)) :
    imagesUnder last (found.map fun found => (step :: found.1, found.2)) = imagesUnder (some step) found := by
  unfold imagesUnder
  rw [List.filterMap_map]
  congr 1
  funext entry
  exact imageUnder_last entry.1 last entry.2 step

theorem imagesUnder_append (last : Option Step) (xs ys : List (List Step × List Char)) :
    imagesUnder last (xs ++ ys) = imagesUnder last xs ++ imagesUnder last ys := List.filterMap_append

mutual

theorem walk_images : (v : JsonValue) → (last : Option Step) → imageUnder last v = none → (walk v).2 = imagesUnder last (strings v)
  | .null, _, _ => rfl
  | .bool _, _, _ => rfl
  | .num _, _, _ => rfl
  | .str cs, last, plain => by
    unfold imagesUnder
    rw [strings, List.filterMap_cons, List.getLast?_nil, Option.none_or, plain]
    rfl
  | .arr items, last, _ => walkItems_images items 0 last
  | .obj fields, last, _ => walkFields_images fields last

theorem walkItems_images : (items : List JsonValue) → (n : Nat) → (last : Option Step) →
    (walkItems items).2 = imagesUnder last (stringsItems n items)
  | [], _, _ => rfl
  | item :: items, n, last => by
    rw [walkItems, stringsItems, imagesUnder_append, imagesUnder_step, walk_images item (some (.index n)) rfl,
      walkItems_images items (n + 1) last]

theorem walkFields_images : (fields : List (List Char × JsonValue)) → (last : Option Step) →
    (walkFields fields).2 = imagesUnder last (stringsFields fields)
  | [], _ => rfl
  | (key, value) :: fields, last => by
    have later := walkFields_images fields last
    rw [stringsFields, imagesUnder_append, imagesUnder_step, ← later]
    cases found : imageIn key value with
    | some image =>
      obtain ⟨-, cs, rfl⟩ := imageIn_key found
      have here : imagesUnder (some (.key key)) (strings (.str cs)) = [image] := by
        unfold imagesUnder
        rw [strings, List.filterMap_cons, List.getLast?_nil, Option.none_or, imageUnder, found]
        rfl
      rw [walkFields_image found, here]
      rfl
    | none => rw [walkFields_plain found, walk_images value (some (.key key)) found]

end

theorem images_walk (v : JsonValue) : (walk v).2 = imagesOf v := by
  rw [walk_images v none rfl]
  unfold imagesUnder imagesOf
  simp only [Option.or_none]

/-! ### The strings of a document are what stands there -/

section
variable {numbers : Numbers}

theorem mem_below {step : Step} {found : List (List Step × List Char)} {path : List Step} {cs : List Char} :
    (path, cs) ∈ found.map (fun found => (step :: found.1, found.2)) ↔ ∃ rest, path = step :: rest ∧ (rest, cs) ∈ found := by
  constructor
  · intro member
    obtain ⟨⟨rest, text⟩, inside, same⟩ := List.mem_map.mp member
    cases same
    exact ⟨rest, rfl, inside⟩
  · intro inside
    obtain ⟨rest, rfl, member⟩ := inside
    exact List.mem_map.mpr ⟨(rest, cs), member, rfl⟩

mutual

theorem mem_strings : {v : JsonValue} → v.Held numbers → {path : List Step} → {cs : List Char} →
    ((path, cs) ∈ strings v ↔ valueAt v path = some (.str cs))
  | .null, _, path, _ => by cases path <;> simp [strings, valueAt, childOf]
  | .bool _, _, path, _ => by cases path <;> simp [strings, valueAt, childOf]
  | .num _, _, path, _ => by cases path <;> simp [strings, valueAt, childOf]
  | .str text, _, path, cs => by
    cases path with
    | nil => simp [strings, valueAt, eq_comm]
    | cons step path => simp [strings, valueAt, childOf]
  | .arr items, held, path, cs => by
    rw [strings, mem_stringsItems held]
    cases path with
    | nil => simp [valueAt]
    | cons step path =>
      cases step with
      | key key => simp [valueAt, childOf]
      | index i => simp [valueAt, childOf]
  | .obj fields, held, path, cs => by
    rw [strings, mem_stringsFields held.2 held.1.nodup]
    cases path with
    | nil => simp [valueAt]
    | cons step path =>
      cases step with
      | index i => simp [valueAt, childOf]
      | key key => simp [valueAt, childOf]

theorem mem_stringsItems : {items : List JsonValue} → JsonValue.HeldItems numbers items → {n : Nat} → {path : List Step} →
    {cs : List Char} → ((path, cs) ∈ stringsItems n items ↔
      ∃ i rest, path = .index (n + i) :: rest ∧ (items[i]?.bind fun item => valueAt item rest) = some (.str cs))
  | [], _, n, path, cs => by simp [stringsItems]
  | item :: items, held, n, path, cs => by
    rw [stringsItems, List.mem_append, mem_below, mem_stringsItems held.2]
    constructor
    · intro found
      rcases found with here | later
      · obtain ⟨rest, rfl, member⟩ := here
        exact ⟨0, rest, rfl, (mem_strings held.1).mp member⟩
      · obtain ⟨i, rest, rfl, there⟩ := later
        exact ⟨i + 1, rest, by rw [Nat.add_assoc, Nat.add_comm 1 i], there⟩
    · intro found
      obtain ⟨i, rest, rfl, there⟩ := found
      cases i with
      | zero => exact Or.inl ⟨rest, rfl, (mem_strings held.1).mpr there⟩
      | succ i => exact Or.inr ⟨i, rest, by rw [Nat.add_assoc, Nat.add_comm 1 i], there⟩

theorem mem_stringsFields : {fields : List (List Char × JsonValue)} → JsonValue.HeldFields numbers fields →
    (fields.map Prod.fst).Nodup → {path : List Step} → {cs : List Char} → ((path, cs) ∈ stringsFields fields ↔
      ∃ key rest, path = .key key :: rest ∧
        (((fields.find? fun field => field.1 = key).map Prod.snd).bind fun value => valueAt value rest) = some (.str cs))
  | [], _, _, path, cs => by simp [stringsFields]
  | (key, value) :: fields, held, nodup, path, cs => by
    rw [List.map_cons, List.nodup_cons] at nodup
    rw [stringsFields, List.mem_append, mem_below, mem_stringsFields held.2 nodup.2]
    constructor
    · intro found
      rcases found with here | later
      · obtain ⟨rest, rfl, member⟩ := here
        exact ⟨key, rest, rfl, by simpa using (mem_strings held.1).mp member⟩
      · obtain ⟨other, rest, rfl, there⟩ := later
        have differs : key ≠ other := by
          intro same
          cases later : fields.find? fun field => field.1 = other with
          | none => simp [later] at there
          | some field =>
            have named : field.1 = other := by simpa using List.find?_some later
            exact nodup.1 (List.mem_map.mpr ⟨field, List.mem_of_find?_eq_some later, named.trans same.symm⟩)
        exact ⟨other, rest, rfl, by simpa [differs] using there⟩
    · intro found
      obtain ⟨other, rest, rfl, there⟩ := found
      by_cases same : key = other
      · subst same
        exact Or.inl ⟨rest, rfl, (mem_strings held.1).mpr (by simpa using there)⟩
      · exact Or.inr ⟨other, rest, rfl, by simpa [same] using there⟩

end

/-! ### The text -/

mutual

theorem walk_held : {v : JsonValue} → v.Held numbers → (walk v).1.Held numbers
  | .null, _ => trivial
  | .bool _, _ => trivial
  | .num _, held => held
  | .str _, _ => trivial
  | .arr _, held => walkItems_held held
  | .obj fields, held =>
    ⟨held.1.sublist (by rw [walkFields_keys]; exact List.filter_sublist), walkFields_held held.2⟩

theorem walkItems_held : {items : List JsonValue} → JsonValue.HeldItems numbers items →
    JsonValue.HeldItems numbers (walkItems items).1
  | [], _ => trivial
  | _ :: _, held => ⟨walk_held held.1, walkItems_held held.2⟩

theorem walkFields_held : {fields : List (List Char × JsonValue)} → JsonValue.HeldFields numbers fields →
    JsonValue.HeldFields numbers (walkFields fields).1
  | [], _ => trivial
  | (key, value) :: fields, held => by
    cases found : imageIn key value with
    | some image =>
      rw [walkFields_image found]
      exact ⟨trivial, walkFields_held held.2⟩
    | none =>
      rw [walkFields_plain found]
      by_cases proto : key = protoKey
      · rw [setEntry, if_pos proto]
        exact walkFields_held held.2
      · rw [setEntry, if_neg proto]
        exact ⟨walk_held held.1, walkFields_held held.2⟩

end

/-- What opens with a brace is an object, if it is anything. -/
theorem parsed_object {raw : List Char} {v : JsonValue} (opens : raw.head? = some '{') (parsed : jsonParse numbers raw = some v) :
    ∃ fields, v = .obj fields := by
  cases raw with
  | nil => cases opens
  | cons c rest =>
    obtain rfl := Option.some.inj opens
    obtain ⟨read, found, rfl⟩ := Option.map_eq_some_iff.mp parsed
    obtain ⟨⟨value, left⟩, first, whole⟩ := Option.bind_eq_some_iff.mp found
    dsimp only at whole
    split at whole
    · obtain rfl := Option.some.inj whole
      rw [parseValue_brace] at first
      split at first
      · cases first
        exact ⟨_, rfl⟩
      · obtain ⟨fields, -, same⟩ := Option.map_eq_some_iff.mp first
        cases same
        exact ⟨_, rfl⟩
    · cases whole

theorem liftImages_parsed {raw : List Char} {v : JsonValue} (opens : raw.head? = some '{')
    (parsed : jsonParse numbers raw = some v) :
    liftImages numbers raw = ⟨(walk v).1.text numbers, (walk v).2⟩ := by
  rw [liftImages, if_pos opens, parsed]

/-- The document a text is, if it is one. -/
def documentOf (numbers : Numbers) (raw : List Char) : Option JsonValue :=
  if raw.head? = some '{' then jsonParse numbers raw else none

theorem liftImages_images (raw : List Char) :
    (liftImages numbers raw).images = ((documentOf numbers raw).map imagesOf).getD [] := by
  rw [liftImages, documentOf]
  split
  · cases jsonParse numbers raw with
    | none => rfl
    | some v => exact images_walk v
  · rfl

/-- Lifting what was lifted changes nothing and finds nothing. -/
theorem liftImages_again {raw : List Char} {v : JsonValue} (opens : raw.head? = some '{')
    (parsed : jsonParse numbers raw = some v) :
    liftImages numbers (liftImages numbers raw).text = ⟨(liftImages numbers raw).text, []⟩ := by
  have shown : jsonParse numbers ((walk v).1.text numbers) = some (walk v).1 := jsonParse_text (walk_held (jsonParse_held parsed))
  obtain ⟨fields, rfl⟩ := parsed_object opens parsed
  rw [liftImages_parsed opens parsed]
  dsimp only
  rw [liftImages_parsed rfl shown, walk_walk]

/-- A document's text still is that document, with a note in the place of each image and nothing else changed
but for the keys that are never written; the images go along in the order of the document, and none is left. -/
theorem liftImages_document {raw : List Char} {v : JsonValue} (opens : raw.head? = some '{') (parsed : jsonParse numbers raw = some v) :
    (∃ shown, jsonParse numbers (liftImages numbers raw).text = some shown ∧ ∀ path, (valueAt shown path).map nodeOf =
        if Step.key protoKey ∈ path then none else (valueAt v path).map (noted path.getLast?)) ∧
      (liftImages numbers raw).images = imagesOf v ∧
      (∀ path cs, (path, cs) ∈ strings v ↔ valueAt v path = some (.str cs)) ∧
      liftImages numbers (liftImages numbers raw).text = ⟨(liftImages numbers raw).text, []⟩ := by
  have held := jsonParse_held parsed
  refine ⟨⟨(walk v).1, ?_, ?_⟩, ?_, ?_, liftImages_again opens parsed⟩
  · rw [liftImages_parsed opens parsed]
    exact jsonParse_text (walk_held held)
  · intro path
    have there := valueAt_shownUnder none v path
    rw [Option.or_none] at there
    exact there
  · rw [liftImages_parsed opens parsed, images_walk]
  · intro path cs
    exact mem_strings held

end

/-- What a video is answered with: how many frames there are, and one of them. -/
def frameDocument : JsonValue :=
  .obj [("frames".toList, .arr [.obj [("atSec".toList, .num ⟨false, 3, 0⟩),
    ("imageDataUrl".toList, .str "data:image/jpeg;base64,/9j/".toList)]]), ("count".toList, .num ⟨false, 1, 0⟩)]

theorem frameDocument_held : frameDocument.Held wholeNumbers := by
  have outer : Listed [("frames".toList, ()), ("count".toList, ())] := ⟨by decide, by decide⟩
  have inner : Listed [("atSec".toList, ()), ("imageDataUrl".toList, ())] := ⟨by decide, by decide⟩
  exact ⟨outer.sublist (List.Sublist.refl _), ⟨⟨inner.sublist (List.Sublist.refl _), rfl, trivial, trivial⟩, trivial⟩, rfl, trivial⟩

theorem liftImages_document_frame :
    (∃ shown, jsonParse wholeNumbers (liftImages wholeNumbers (frameDocument.text wholeNumbers)).text = some shown ∧
        ∀ path, (valueAt shown path).map nodeOf =
          if Step.key protoKey ∈ path then none else (valueAt frameDocument path).map (noted path.getLast?)) ∧
      (liftImages wholeNumbers (frameDocument.text wholeNumbers)).images = [⟨"image/jpeg".toList, "/9j/".toList⟩] := by
  obtain ⟨shown, images, -, -⟩ := liftImages_document rfl (jsonParse_text frameDocument_held)
  exact ⟨shown, images.trans (by decide)⟩

end GroupButler.Tools
