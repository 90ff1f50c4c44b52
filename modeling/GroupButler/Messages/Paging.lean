import GroupButler.Messages.Search

/-!
# Paging through a search

Walking a search from page to page reads every matching message once, newest first: the cursor
names the last row's ordering key, which no other message of the organization has.
-/

namespace GroupButler.Messages
open Foundation Ingest Store

/-- An id the worker stores: not empty, and ASCII. -/
def IsId (id : String) : Prop := id ≠ "" ∧ ∀ c ∈ id.toList, c.toNat < 128

/-- A message as the worker stores it. The instance id comes from the environment, where no NUL can
stand; a message without an id is refused at the door. -/
structure MessageDoc.Keyed (doc : MessageDoc) (key : MessageCursorKey) : Prop where
  dated : doc.timestamp = some key.timestamp
  named : doc.waMessageId = some key.waMessageId
  placed : doc.instanceId = some key.instanceId
  years : FourDigitYear key.timestamp
  message : IsId key.waMessageId
  inst : IsId key.instanceId
  noNul : '\u0000' ∉ key.instanceId.toList

/-- A collection of messages under its unique index. -/
structure StoredMessages where
  docs : List MessageDoc
  keyed : ∀ doc ∈ docs, ∃ key, doc.Keyed key
  unique : docs.Pairwise fun first second => first.organizationId = second.organizationId →
    ¬ (first.instanceId = second.instanceId ∧ first.waMessageId = second.waMessageId)

/-! ### The cursor -/

theorem parseStrings_cursorText {row : MessageRow} {timestamp : String} (dated : row.timestamp = some timestamp) :
    parseStrings (cursorText row) = some (timestamp.toList, row.waMessageId.toList, row.instanceId.toList) := by
  simp only [parseStrings, cursorText, dated]
  rw [expect_cons (by decide)]
  simp only [Option.bind_eq_bind, Option.bind_some, readString_quote]
  rw [expect_cons (by decide)]
  simp only [Option.bind_some, readString_quote]
  rw [expect_cons (by decide)]
  simp only [Option.bind_some, readString_quote]
  rw [expect_cons (by decide)]
  rfl

theorem quote_ascii {cs : List Char} (ascii : ∀ c ∈ cs, c.toNat < 128) : ∀ c ∈ quote cs, c.toNat < 128 := by
  intro c member
  rcases List.mem_cons.mp member with rfl | member
  · decide
  · rcases List.mem_append.mp member with inside | last
    · obtain ⟨d, held, quoted⟩ := List.mem_flatMap.mp inside
      exact quoteChar_ascii (ascii d held) c quoted
    · rw [List.mem_singleton.mp last]
      decide

theorem cursorText_ascii {row : MessageRow} {timestamp : String} (dated : row.timestamp = some timestamp)
    (asciiTime : ∀ c ∈ timestamp.toList, c.toNat < 128) (asciiMessage : ∀ c ∈ row.waMessageId.toList, c.toNat < 128)
    (asciiInstance : ∀ c ∈ row.instanceId.toList, c.toNat < 128) : ∀ c ∈ cursorText row, c.toNat < 128 := by
  intro c member
  simp only [cursorText, dated, List.mem_cons, List.mem_append, List.not_mem_nil, or_false] at member
  rcases member with rfl | member | rfl | member | rfl | member | rfl
  · decide
  · exact quote_ascii asciiTime c member
  · decide
  · exact quote_ascii asciiMessage c member
  · decide
  · exact quote_ascii asciiInstance c member
  · decide

theorem MessageDoc.Keyed.row {doc : MessageDoc} {key : MessageCursorKey} (keyed : doc.Keyed key) :
    (toMessageRow doc).timestamp = some (toISOString key.timestamp) ∧
      (toMessageRow doc).waMessageId = key.waMessageId ∧ (toMessageRow doc).instanceId = key.instanceId := by
  simp [toMessageRow, keyed.dated, keyed.named, keyed.placed]

theorem toISOString_ascii (ms : Time) : ∀ c ∈ (toISOString ms).toList, c.toNat < 128 := by
  rw [toISOString, String.toList_ofList]
  exact fun _ => isoChars_ascii

theorem decode_encode [DateStrings] {doc : MessageDoc} {key : MessageCursorKey} (keyed : doc.Keyed key) :
    decodeMessageCursor (encodeMessageCursor (toMessageRow doc)) = .ok key := by
  obtain ⟨dated, named, placed⟩ := keyed.row
  have ascii := cursorText_ascii dated (toISOString_ascii _) (named ▸ keyed.message.2) (placed ▸ keyed.inst.2)
  have octets : ∀ byte ∈ toUtf8 (cursorText (toMessageRow doc)), byte < 256 := by
    rw [toUtf8_ascii ascii]
    intro byte member
    obtain ⟨c, held, rfl⟩ := List.mem_map.mp member
    have := ascii c held
    omega
  have someMessage : key.waMessageId.toList ≠ [] := fun none => keyed.message.1 (String.toList_inj.mp none)
  have someInstance : key.instanceId.toList ≠ [] := fun none => keyed.inst.1 (String.toList_inj.mp none)
  rw [decodeMessageCursor, encodeMessageCursor, String.toList_ofList, ofBase64url_toBase64url octets,
    ofUtf8_toUtf8_ascii ascii, parseStrings_cursorText dated, named, placed]
  simp only [someMessage, someInstance, or_self, if_false, String.ofList_toList, readDate_toISOString keyed.years]

/-! ### One order on both sides -/

/-- The ordering key of a keyed document. -/
def MessageCursorKey.sort (key : MessageCursorKey) : SortKey :=
  toLex ((key.timestamp : WithBot Time), toLex ((key.waMessageId : WithBot String), (key.instanceId : WithBot String)))

theorem MessageDoc.Keyed.sortKey {doc : MessageDoc} {key : MessageCursorKey} (keyed : doc.Keyed key) :
    sortKey doc = key.sort := by
  rw [Messages.sortKey, keyed.dated, keyed.named, keyed.placed]
  rfl

/-- Strictly newer, in the database's order. -/
def Newer (first second : MessageDoc) : Prop := sortKey second < sortKey first

instance : DecidableRel Newer := fun first second => inferInstanceAs (Decidable (sortKey second < sortKey first))

theorem sort_lt_iff {first second : MessageCursorKey} : first.sort < second.sort ↔
    first.timestamp < second.timestamp ∨ first.timestamp = second.timestamp ∧
      (first.waMessageId < second.waMessageId ∨ first.waMessageId = second.waMessageId ∧
        first.instanceId < second.instanceId) := by
  simp only [MessageCursorKey.sort, Prod.Lex.toLex_lt_toLex, WithBot.coe_lt_coe, WithBot.coe_inj]

theorem olderThan_iff {doc : MessageDoc} {key own : MessageCursorKey} (keyed : doc.Keyed own) :
    olderThan key doc = true ↔ own.sort < key.sort := by
  rw [sort_lt_iff]
  simp only [olderThan, keyed.dated, keyed.named, keyed.placed, Option.any_some, Option.some.injEq, Bool.or_eq_true,
    Bool.and_eq_true, decide_eq_true_eq]
  tauto

/-- The ordering key `compareRows` goes by. -/
def rowKey (row : MessageRow) : Lex (List Nat × Lex (List Nat × List Nat)) :=
  toLex (utf16 (row.timestamp.getD ""), toLex (utf16 row.waMessageId, utf16 row.instanceId))

theorem sortsBefore_iff (left right : MessageRow) : sortsBefore left right ↔ rowKey right ≤ rowKey left := by
  have decided : ∀ s t : String, s ≠ t → (¬ utf16 s < utf16 t ↔ utf16 t < utf16 s) := by
    intro s t other
    have apart : utf16 s ≠ utf16 t := fun same => other (utf16_inj same)
    rw [not_lt]
    exact ⟨fun le => lt_of_le_of_ne le (Ne.symm apart), le_of_lt⟩
  have sign : ∀ p : Prop, [Decidable p] → ((if p then 1 else -1 : Int) ≤ 0 ↔ ¬ p) := by
    intro p _
    split <;> simp [*]
  rw [rowKey, rowKey, Prod.Lex.toLex_le_toLex, Prod.Lex.toLex_le_toLex]
  unfold sortsBefore compareRows
  dsimp only
  have apart : ∀ {s t : String}, s ≠ t → ∀ p : Prop, utf16 t < utf16 s ∨ utf16 t = utf16 s ∧ p ↔ utf16 t < utf16 s := by
    intro s t other p
    exact or_iff_left fun same => other (utf16_inj same.1.symm)
  split
  · rename_i other
    rw [sign, decided _ _ other, apart other]
  · rename_i sameTime
    rw [not_not.mp sameTime]
    simp only [lt_irrefl, false_or, true_and]
    split
    · rename_i other
      rw [sign, decided _ _ other, apart other]
    · rename_i sameMessage
      rw [not_not.mp sameMessage]
      simp only [lt_irrefl, false_or, true_and]
      split
      · rename_i sameInstance
        simp [sameInstance]
      · rename_i other
        rw [sign, decided _ _ other]
        exact ⟨le_of_lt, fun le => lt_of_le_of_ne le fun same => other (utf16_inj same.symm)⟩

theorem id_lt {s t : String} (asciiS : ∀ c ∈ s.toList, c.toNat < 128) (asciiT : ∀ c ∈ t.toList, c.toNat < 128)
    (h : s < t) : utf16 s < utf16 t :=
  utf16_lt_of_ascii asciiS asciiT h

/-- The dashboard sorts rows as the database sorts documents. -/
theorem rowKey_lt {first second : MessageDoc} {key key' : MessageCursorKey} (keyed : first.Keyed key)
    (keyed' : second.Keyed key') (newer : Newer first second) :
    rowKey (toMessageRow second) < rowKey (toMessageRow first) := by
  obtain ⟨dated, named, placed⟩ := keyed.row
  obtain ⟨dated', named', placed'⟩ := keyed'.row
  rw [Newer, keyed.sortKey, keyed'.sortKey, sort_lt_iff] at newer
  rw [rowKey, rowKey, Prod.Lex.toLex_lt_toLex, Prod.Lex.toLex_lt_toLex]
  simp only [dated, named, placed, dated', named', placed', Option.getD_some]
  rcases newer with earlier | ⟨sameTime, smaller | ⟨sameMessage, smaller⟩⟩
  · exact Or.inl (toISOString_lt keyed'.years keyed.years earlier)
  · exact Or.inr ⟨by rw [sameTime], Or.inl (id_lt keyed'.message.2 keyed.message.2 smaller)⟩
  · exact Or.inr ⟨by rw [sameTime], Or.inr ⟨by rw [sameMessage], id_lt keyed'.inst.2 keyed.inst.2 smaller⟩⟩

/-! ### Identities -/

theorem identity_inj {row row' : MessageRow} (noNul : '\u0000' ∉ row.instanceId.toList)
    (noNul' : '\u0000' ∉ row'.instanceId.toList) (same : identity row = identity row') :
    row.instanceId = row'.instanceId ∧ row.waMessageId = row'.waMessageId := by
  have chars := congrArg String.toList same
  simp only [identity, String.toList_append] at chars
  obtain ⟨inst, message⟩ := append_sep_inj noNul noNul' (by simpa using chars)
  exact ⟨String.toList_inj.mp inst, String.toList_inj.mp message⟩

theorem byIdentity_concat (rows : List MessageRow) (row : MessageRow) : byIdentity (rows ++ [row]) =
    if (byIdentity rows).any (fun other => identity other = identity row) then byIdentity rows
    else byIdentity rows ++ [row] := by
  rw [byIdentity, List.foldl_append]
  rfl

theorem byIdentity_spec (rows : List MessageRow) :
    (byIdentity rows).Pairwise (fun first second => identity first ≠ identity second) ∧
      (∀ row ∈ byIdentity rows, row ∈ rows) ∧ ∀ row ∈ rows, ∃ kept ∈ byIdentity rows, identity kept = identity row := by
  induction rows using List.reverseRecOn with
  | nil => exact ⟨.nil, by simp [byIdentity], by simp⟩
  | append_singleton rows row ih =>
    obtain ⟨apart, inside, found⟩ := ih
    rw [byIdentity_concat]
    split
    · rename_i seen
      obtain ⟨kept, member, same⟩ := List.any_eq_true.mp seen
      refine ⟨apart, fun other held => List.mem_append_left _ (inside other held), ?_⟩
      intro other held
      rcases List.mem_append.mp held with earlier | last
      · exact found other earlier
      · rw [List.mem_singleton.mp last]
        exact ⟨kept, member, of_decide_eq_true same⟩
    · rename_i unseen
      have fresh : ∀ other ∈ byIdentity rows, identity other ≠ identity row := by
        intro other member same
        exact unseen (List.any_eq_true.mpr ⟨other, member, decide_eq_true same⟩)
      refine ⟨?_, ?_, ?_⟩
      · rw [List.pairwise_append]
        refine ⟨apart, List.pairwise_singleton _ _, ?_⟩
        intro other member last isLast
        rw [List.mem_singleton.mp isLast]
        exact fresh other member
      · intro other held
        rcases List.mem_append.mp held with earlier | last
        · exact List.mem_append_left _ (inside other earlier)
        · exact List.mem_append_right _ last
      · intro other held
        rcases List.mem_append.mp held with earlier | last
        · obtain ⟨kept, member, same⟩ := found other earlier
          exact ⟨kept, List.mem_append_left _ member, same⟩
        · rw [List.mem_singleton.mp last]
          exact ⟨row, List.mem_append_right _ List.mem_cons_self, rfl⟩

instance : Std.Total sortsBefore := ⟨fun left right => by
  rw [sortsBefore_iff, sortsBefore_iff]
  exact le_total _ _⟩

instance : IsTrans MessageRow sortsBefore := ⟨fun first second third h₁ h₂ => by
  rw [sortsBefore_iff] at *
  exact h₂.trans h₁⟩

/-- Strictly newer, as rows. -/
def NewerRow (first second : MessageRow) : Prop := rowKey second < rowKey first

instance : Std.Irrefl NewerRow := ⟨fun _ => lt_irrefl _⟩

instance : Std.Antisymm NewerRow := ⟨fun _ _ h₁ h₂ => (lt_asymm h₁ h₂).elim⟩

/-- The rows of distinct identities, sorted, are sorted strictly. -/
theorem sorted_rows (rows : List MessageRow) : ((byIdentity rows).insertionSort sortsBefore).Pairwise NewerRow := by
  have weak : ((byIdentity rows).insertionSort sortsBefore).Pairwise sortsBefore := List.pairwise_insertionSort _ _
  have apart : ((byIdentity rows).insertionSort sortsBefore).Pairwise fun first second => identity first ≠ identity second :=
    ((List.perm_insertionSort _ _).pairwise_iff Ne.symm).mpr (byIdentity_spec rows).1
  refine (weak.and apart).imp ?_
  rintro first second ⟨before, other⟩
  refine lt_of_le_of_ne ((sortsBefore_iff first second).mp before) fun same => other ?_
  simp only [rowKey, toLex_inj, Prod.mk.injEq] at same
  rw [identity, identity, utf16_inj same.2.1, utf16_inj same.2.2]

/-- A listing of stored documents: sorted strictly, and no two under one identity. -/
structure Listing (listing : List MessageDoc) : Prop where
  keyed : ∀ doc ∈ listing, ∃ key, doc.Keyed key
  sorted : listing.Pairwise Newer
  unique : ∀ first ∈ listing, ∀ second ∈ listing, first.instanceId = second.instanceId →
    first.waMessageId = second.waMessageId → first = second

theorem Listing.filter {listing : List MessageDoc} (sound : Listing listing) (p : MessageDoc → Bool) :
    Listing (listing.filter p) where
  keyed := fun doc member => sound.keyed doc (List.mem_of_mem_filter member)
  sorted := sound.sorted.filter p
  unique := fun first held second held' =>
    sound.unique first (List.mem_of_mem_filter held) second (List.mem_of_mem_filter held')

theorem Listing.identified {listing : List MessageDoc} (sound : Listing listing) {first second : MessageDoc}
    (held : first ∈ listing) (held' : second ∈ listing)
    (same : identity (toMessageRow first) = identity (toMessageRow second)) : first = second := by
  obtain ⟨key, keyed⟩ := sound.keyed first held
  obtain ⟨key', keyed'⟩ := sound.keyed second held'
  obtain ⟨-, named, placed⟩ := keyed.row
  obtain ⟨-, named', placed'⟩ := keyed'.row
  obtain ⟨inst, message⟩ := identity_inj (placed ▸ keyed.noNul) (placed' ▸ keyed'.noNul) same
  refine sound.unique first held second held' ?_ ?_
  · rw [keyed.placed, keyed'.placed, ← placed, ← placed', inst]
  · rw [keyed.named, keyed'.named, ← named, ← named', message]

/-- The union of two pages, without repeats and sorted, is part of the listing in its order. -/
theorem sorted_union {listing docs : List MessageDoc} (sound : Listing listing)
    (within : ∀ doc ∈ docs, doc ∈ listing) :
    (byIdentity (docs.map toMessageRow)).insertionSort sortsBefore =
      (listing.filter fun doc => decide (doc ∈ docs)).map toMessageRow := by
  obtain ⟨-, inside, found⟩ := byIdentity_spec (docs.map toMessageRow)
  refine List.Pairwise.eq_of_mem_iff (sorted_rows _) ?_ fun row => ?_
  · rw [List.pairwise_map]
    refine (sound.filter _).sorted.imp_of_mem ?_
    intro first second held held' newer
    obtain ⟨key, keyed⟩ := (sound.filter _).keyed first held
    obtain ⟨key', keyed'⟩ := (sound.filter _).keyed second held'
    exact rowKey_lt keyed keyed' newer
  · rw [List.mem_insertionSort, List.mem_map]
    simp only [List.mem_filter, decide_eq_true_eq]
    constructor
    · intro member
      obtain ⟨doc, held, rfl⟩ := List.mem_map.mp (inside row member)
      exact ⟨doc, ⟨within doc held, held⟩, rfl⟩
    · rintro ⟨doc, ⟨listed, held⟩, rfl⟩
      obtain ⟨kept, member, same⟩ := found _ (List.mem_map_of_mem held)
      obtain ⟨other, held', rfl⟩ := List.mem_map.mp (inside kept member)
      rwa [sound.identified (within other held') listed same] at member

/-! ### Pages of a listing -/

instance : Std.Total newestFirst := ⟨fun _ _ => le_total _ _⟩

instance : IsTrans MessageDoc newestFirst := ⟨fun _ _ _ h₁ h₂ => le_trans h₂ h₁⟩

instance : Std.Irrefl Newer := ⟨fun _ => lt_irrefl _⟩

instance : Std.Antisymm Newer := ⟨fun _ _ h₁ h₂ => (lt_asymm h₁ h₂).elim⟩

/-- What a filter selects, in the order it is read. -/
def listing (docs : List MessageDoc) (filter : MessageDoc → Bool) : List MessageDoc :=
  (docs.filter filter).insertionSort newestFirst

theorem mem_listing {docs : List MessageDoc} {filter : MessageDoc → Bool} {doc : MessageDoc} :
    doc ∈ listing docs filter ↔ doc ∈ docs ∧ filter doc = true := by
  rw [listing, List.mem_insertionSort, List.mem_filter]

/-- Within one organization the key is unique, so the order is strict. -/
theorem listing_sound (stored : StoredMessages) {filter : MessageDoc → Bool} {organizationId : String}
    (tenant : ∀ doc, filter doc = true → doc.organizationId = organizationId) : Listing (listing stored.docs filter) where
  keyed := fun doc member => stored.keyed doc (mem_listing.mp member).1
  sorted := by
    have weak : (listing stored.docs filter).Pairwise newestFirst := List.pairwise_insertionSort _ _
    have apart : (listing stored.docs filter).Pairwise fun first second =>
        ¬ (first.instanceId = second.instanceId ∧ first.waMessageId = second.waMessageId) := by
      refine ((List.perm_insertionSort _ _).pairwise_iff ?_).mpr ?_
      · rintro first second other ⟨inst, message⟩
        exact other ⟨inst.symm, message.symm⟩
      · refine (stored.unique.filter filter).imp_of_mem ?_
        intro first second held held' other
        exact other ((tenant first (List.mem_filter.mp held).2).trans (tenant second (List.mem_filter.mp held').2).symm)
    refine (weak.and apart).imp ?_
    rintro first second ⟨before, other⟩
    refine lt_of_le_of_ne before fun same => other ?_
    have ids := toLex_inj.mp (congrArg Prod.snd (toLex_inj.mp same))
    exact ⟨(congrArg Prod.snd ids).symm, (congrArg Prod.fst ids).symm⟩
  unique := by
    intro first held second held' inst message
    have both : ∀ ⦃first⦄, first ∈ stored.docs → ∀ ⦃second⦄, second ∈ stored.docs →
        first.organizationId = second.organizationId →
        first.instanceId = second.instanceId ∧ first.waMessageId = second.waMessageId → first = second := by
      refine List.Pairwise.forall_of_forall_of_flip (fun _ _ _ _ => rfl) (stored.unique.imp ?_) (stored.unique.imp ?_)
      · intro first second other org ids
        exact (other org ids).elim
      · intro first second other org ids
        exact (other org.symm ⟨ids.1.symm, ids.2.symm⟩).elim
    exact both (mem_listing.mp held).1 (mem_listing.mp held').1
      ((tenant first (mem_listing.mp held).2).trans (tenant second (mem_listing.mp held').2).symm) ⟨inst, message⟩

theorem listing_and (stored : StoredMessages) {filter further both : MessageDoc → Bool} {organizationId : String}
    (tenant : ∀ doc, filter doc = true → doc.organizationId = organizationId)
    (split : ∀ doc, both doc = (filter doc && further doc)) :
    listing stored.docs both = (listing stored.docs filter).filter further := by
  have tenant' : ∀ doc, both doc = true → doc.organizationId = organizationId := by
    intro doc passes
    rw [split, Bool.and_eq_true] at passes
    exact tenant doc passes.1
  refine List.Pairwise.eq_of_mem_iff (listing_sound stored tenant').sorted
    ((listing_sound stored tenant).filter further).sorted fun doc => ?_
  rw [mem_listing, List.mem_filter, mem_listing, split, Bool.and_eq_true, and_assoc]

theorem encode_given [DateStrings] {doc : MessageDoc} {key : MessageCursorKey} (keyed : doc.Keyed key) :
    given (some (encodeMessageCursor (toMessageRow doc))) = some (encodeMessageCursor (toMessageRow doc)) := by
  have nonempty : encodeMessageCursor (toMessageRow doc) ≠ "" := by
    intro empty
    have decoded := decode_encode keyed
    rw [empty] at decoded
    cases decoded
  simp [given, nonempty]

theorem nextMessageCursor_eq {rows : List MessageRow} (dated : ∀ row ∈ rows, row.timestamp ≠ none) (limit : Nat) :
    nextMessageCursor rows limit = nextCursor encodeMessageCursor limit rows := by
  unfold nextMessageCursor nextCursor
  split
  · rfl
  · cases last : rows.getLast? with
    | none => rfl
    | some row => exact if_neg (dated row (List.mem_of_getLast? last))

theorem clampMessageLimit_clamped (value : Option ℚ) :
    clampMessageLimit (some (clampMessageLimit value : ℚ)) = clampMessageLimit value := by
  obtain ⟨low, high⟩ := clampMessageLimit_bounds value
  generalize clampMessageLimit value = n at *
  have most : messageMaxLimit = 200 := rfl
  simp only [clampMessageLimit, Int.floor_natCast, most] at high ⊢
  omega

section
variable [Unicode] [Casing]

/-- The text branch or the type-ahead branch matches, where there is a term. -/
def termMatches (textMatch : List Char → MessageDoc → Bool) (query : Option String) (doc : MessageDoc) : Bool :=
  (searchTerm query).isEmpty || textMatch (searchTerm query) doc || doc.textSearch.any (typeaheadMatches query)

variable [DateStrings]

/-- One page of a search, whatever its cursor leaves out. -/
theorem searchMessages_page (stored : StoredMessages) (textMatch : List Char → MessageDoc → Bool)
    (input : MessageSearchInput) {filter later : MessageDoc → Bool} (served : messageFilter input = .ok filter)
    (split : ∀ doc, filter doc = (compoundFilter input doc && later doc)) :
    searchMessages textMatch stored.docs input = .ok
      (((((listing stored.docs (compoundFilter input)).filter (termMatches textMatch input.query)).filter later).take
        (clampMessageLimit input.limit)).map toMessageRow) := by
  have tenant : ∀ doc, compoundFilter input doc = true → doc.organizationId = input.organizationId := by
    intro doc passes
    simp only [compoundFilter, Bool.and_eq_true, decide_eq_true_eq] at passes
    exact passes.1.1.1.1.1.1.1
  generalize limit : clampMessageLimit input.limit = n
  have page : ∀ further both : MessageDoc → Bool, (∀ doc, both doc = (filter doc && further doc)) →
      findPage stored.docs both n =
        (((listing stored.docs (compoundFilter input)).filter later).filter further).take n := by
    intro further both narrowed
    rw [List.filter_filter]
    refine congrArg (List.take n) (listing_and stored tenant fun doc => ?_)
    rw [narrowed, split, Bool.and_assoc, Bool.and_comm (later doc)]
  have sound := (listing_sound stored tenant).filter later
  have swap : ((listing stored.docs (compoundFilter input)).filter (termMatches textMatch input.query)).filter later =
      ((listing stored.docs (compoundFilter input)).filter later).filter (termMatches textMatch input.query) := by
    rw [List.filter_filter, List.filter_filter]
    exact List.filter_congr fun doc _ => Bool.and_comm _ _
  rw [swap]
  generalize (listing stored.docs (compoundFilter input)).filter later = rest at page sound
  unfold searchMessages
  simp only [served, limit, bind, Except.bind]
  by_cases empty : (searchTerm input.query).isEmpty = true
  · have every : rest.filter (termMatches textMatch input.query) = rest := by
      rw [List.filter_eq_self]
      intro doc _
      rw [termMatches, empty, Bool.true_or, Bool.true_or]
    have whole := page (fun _ => true) filter fun doc => (Bool.and_true _).symm
    rw [if_pos empty, every, whole, List.filter_true]
    rfl
  · have byText := page (textMatch (searchTerm input.query)) _ fun _ => rfl
    have byTypeahead := page (fun doc => doc.textSearch.any (typeaheadMatches input.query)) _ fun _ => rfl
    rw [if_neg empty, byText, byTypeahead]
    have either : rest.filter (termMatches textMatch input.query) = rest.filter fun doc =>
        textMatch (searchTerm input.query) doc || doc.textSearch.any (typeaheadMatches input.query) := by
      refine List.filter_congr fun doc _ => ?_
      rw [termMatches, Bool.eq_false_of_not_eq_true empty, Bool.false_or]
    have within : ∀ doc ∈ (rest.filter (textMatch (searchTerm input.query))).take n ++
        (rest.filter fun doc => doc.textSearch.any (typeaheadMatches input.query)).take n, doc ∈ rest := by
      intro doc member
      rcases List.mem_append.mp member with found | found
      · exact List.mem_of_mem_filter (List.mem_of_mem_take found)
      · exact List.mem_of_mem_filter (List.mem_of_mem_take found)
    have nodup : rest.Nodup := by
      refine sound.sorted.imp ?_
      rintro first second newer rfl
      exact lt_irrefl _ newer
    rw [either, sorted_union sound within, ← List.map_take, take_union nodup le_rfl le_rfl]
    rfl

/-- Ask for the next page until there is none. Every page but the last is full, so there are at most
as many as messages, and one more. -/
def walkSearch (textMatch : List Char → MessageDoc → Bool) (docs : List MessageDoc) (input : MessageSearchInput) :
    Option (List MessageRow) :=
  walkPages (fun cursor => (listMessages textMatch docs { input with cursor }).toOption) (docs.length + 1) none

/-- The rows a search is about. -/
def matched (textMatch : List Char → MessageDoc → Bool) (input : MessageSearchInput) (doc : MessageDoc) : Bool :=
  compoundFilter input doc && termMatches textMatch input.query doc

omit [DateStrings] in
theorem matched_tenant {textMatch : List Char → MessageDoc → Bool} {input : MessageSearchInput} {doc : MessageDoc}
    (passes : matched textMatch input doc = true) : doc.organizationId = input.organizationId := by
  simp only [matched, compoundFilter, Bool.and_eq_true, decide_eq_true_eq] at passes
  exact passes.1.1.1.1.1.1.1.1

theorem listMessages_page (stored : StoredMessages) (textMatch : List Char → MessageDoc → Bool)
    (input : MessageSearchInput) (cursor : Option String) {filter later : MessageDoc → Bool}
    (served : messageFilter { input with cursor, limit := some (clampMessageLimit input.limit : ℚ) } = .ok filter)
    (split : ∀ doc, filter doc = (compoundFilter input doc && later doc)) :
    let rows := (((listing stored.docs (matched textMatch input)).filter later).map toMessageRow).take
      (clampMessageLimit input.limit)
    (listMessages textMatch stored.docs { input with cursor }).toOption =
      some (rows, nextCursor encodeMessageCursor (clampMessageLimit input.limit) rows) := by
  intro rows
  have tenant : ∀ doc, compoundFilter input doc = true → doc.organizationId = input.organizationId := by
    intro doc passes
    simp only [compoundFilter, Bool.and_eq_true, decide_eq_true_eq] at passes
    exact passes.1.1.1.1.1.1.1
  have parts : listing stored.docs (matched textMatch input) =
      (listing stored.docs (compoundFilter input)).filter (termMatches textMatch input.query) :=
    listing_and stored tenant fun _ => rfl
  have page := searchMessages_page stored textMatch _ served split
  have dated : ∀ row ∈ rows, row.timestamp ≠ none := by
    intro row member
    obtain ⟨doc, held, rfl⟩ := List.mem_map.mp (List.mem_of_mem_take member)
    obtain ⟨key, keyed⟩ := stored.keyed doc (mem_listing.mp (List.mem_of_mem_filter held)).1
    simp [keyed.row.1]
  have answer : searchMessages textMatch stored.docs
      { { input with cursor } with limit := some (clampMessageLimit input.limit : ℚ) } = .ok rows := by
    refine page.trans ?_
    rw [clampMessageLimit_clamped, List.map_take]
    simp only [rows, parts]
    rfl
  unfold listMessages
  simp only [answer, bind, Except.bind, pure, Except.pure, Except.toOption, nextMessageCursor_eq dated]

/-- The search serves its listing a page at a time. -/
theorem search_paged (stored : StoredMessages) (textMatch : List Char → MessageDoc → Bool) (input : MessageSearchInput) :
    Paged (fun cursor => (listMessages textMatch stored.docs { input with cursor }).toOption) encodeMessageCursor
      (clampMessageLimit input.limit) ((listing stored.docs (matched textMatch input)).map toMessageRow) where
  first := by
    have every : ∀ doc, compoundFilter input doc = (compoundFilter input doc && (fun _ => true) doc) :=
      fun doc => (Bool.and_true _).symm
    have page := listMessages_page stored textMatch input none rfl every
    rwa [List.filter_true] at page
  after := by
    intro before last rest split
    obtain ⟨front, tail, whole, -, later⟩ := List.map_eq_append_iff.mp split
    obtain ⟨doc, docs, rfl, rfl, rfl⟩ := List.map_eq_cons_iff.mp later
    have sound := listing_sound stored fun doc (passes : matched textMatch input doc = true) => matched_tenant passes
    rw [whole] at sound
    obtain ⟨key, keyed⟩ := sound.keyed doc (by simp)
    have served : messageFilter { input with
          cursor := some (encodeMessageCursor (toMessageRow doc))
          limit := some (clampMessageLimit input.limit : ℚ) } =
        .ok fun other => compoundFilter input other && olderThan key other := by
      simp only [messageFilter, encode_given keyed, decode_encode keyed]
      rfl
    have page := listMessages_page stored textMatch input _ served fun _ => rfl
    have asymm : ∀ first second, Newer first second → ¬ Newer second first := fun _ _ h h' => lt_asymm h h'
    have after : (front ++ doc :: docs).filter (olderThan key) = docs := by
      refine (List.filter_congr fun other member => ?_).trans (filter_after asymm sound.sorted)
      obtain ⟨own, keyed'⟩ := sound.keyed other member
      rw [Bool.eq_iff_iff, olderThan_iff keyed', decide_eq_true_eq, Newer, keyed.sortKey, keyed'.sortKey]
    rwa [whole, after] at page

end

end GroupButler.Messages
