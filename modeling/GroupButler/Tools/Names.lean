import GroupButler.Tools.Sizes

/-!
# A group by the name it is shown under

`monitored_groups` shows each name without its control and formatting characters, clipped; a direct chat may
send any of those names back. The names are compared trimmed and in lower case, and a name with an `@` in it
is taken for an address.
-/

namespace GroupButler.Tools
open Foundation Ai

theorem filter_singleton {α : Type} {p : α → Bool} {xs : List α} (distinct : xs.Nodup) {a : α} (member : a ∈ xs) :
    xs.filter p = [a] ↔ p a = true ∧ ∀ b ∈ xs, b ≠ a → p b = false := by
  constructor
  · intro only
    have first : a ∈ xs.filter p := only ▸ List.mem_singleton_self a
    refine ⟨(List.mem_filter.mp first).2, fun b listed other => ?_⟩
    rw [← Bool.not_eq_true]
    intro passes
    have kept : b ∈ xs.filter p := List.mem_filter.mpr ⟨listed, passes⟩
    exact other (List.mem_singleton.mp (only ▸ kept))
  · rintro ⟨passes, others⟩
    apply List.perm_singleton.mp
    rw [List.perm_ext_iff_of_nodup (distinct.filter p) (List.nodup_singleton a)]
    intro b
    rw [List.mem_filter, List.mem_singleton]
    constructor
    · rintro ⟨listed, kept⟩
      by_contra other
      rw [others b listed other] at kept
      cases kept
    · rintro rfl
      exact ⟨member, passes⟩

theorem monitoredGroups_nodup {db : Database} {context : ToolChatContext} (indexed : Indexed db) : (monitoredGroups db context).Nodup :=
  (List.Nodup.of_map _ indexed.groups).filter _

theorem monitored_jid {db : Database} {context : ToolChatContext} (indexed : Indexed db) {row other : StoredGroup} (member : row ∈ monitoredGroups db context)
    (listed : other ∈ monitoredGroups db context) (same : other.groupJid = row.groupJid) : other = row := by
  obtain ⟨stored, inside⟩ := List.mem_filter.mp member
  obtain ⟨stored', inside'⟩ := List.mem_filter.mp listed
  simp only [Bool.and_eq_true, beq_iff_eq] at inside inside'
  apply List.inj_on_of_nodup_map indexed.groups stored' stored
  rw [StoredGroup.key, StoredGroup.key, inside.1.1, inside.1.2, inside'.1.1, inside'.1.2, same]

section
variable [Runtime] [Normalization] {db : Database} {context : ToolChatContext} {row : StoredGroup}

/-- The name a group is listed under. -/
def listedName (row : StoredGroup) : Clipped := clipJson (groupName row) GroupToolLimits.labelChars

/-- A monitored group the owner can tell from the others by its listed name, case aside. -/
structure Told (db : Database) (context : ToolChatContext) (row : StoredGroup) : Prop where
  monitored : row ∈ monitoredGroups db context
  visible : jsTrim (listedName row).value ≠ ""
  whole : (listedName row).truncated = false
  apart : ∀ other ∈ monitoredGroups db context, other ≠ row →
    Runtime.toLocaleLowerCase (listedName other).value ≠ Runtime.toLocaleLowerCase (listedName row).value

/-- A reference means a group: it is its address, or its name but for case and the blanks around it. -/
inductive Means (reference : String) (row : StoredGroup) : Prop
  | address : (jsTrim reference).toList.contains '@' = true → row.groupJid = jsTrim reference → Means reference row
  | name (subject : String) : (jsTrim reference).toList.contains '@' = false → row.subject = some subject →
      Runtime.toLocaleLowerCase (jsTrim (normalizeUntrustedText subject)) =
        Runtime.toLocaleLowerCase (normalizeUntrustedText (jsTrim reference)) → Means reference row

/-- The listed name finds its way back: with an `@` it is the address itself; otherwise it is still in normal form
once trimmed, and no other monitored group has it as its whole trimmed name. -/
inductive Returns (db : Database) (context : ToolChatContext) (row : StoredGroup) : Prop
  | address : (jsTrim (listedName row).value).toList.contains '@' = true → jsTrim (listedName row).value = row.groupJid →
      Returns db context row
  | name : (jsTrim (listedName row).value).toList.contains '@' = false →
      Runtime.toLocaleLowerCase (jsTrim (listedName row).value) ≠ "" →
      Runtime.toLocaleLowerCase (normalizeUntrustedText (jsTrim (listedName row).value)) =
        Runtime.toLocaleLowerCase (jsTrim (listedName row).value) →
      (∀ other ∈ monitoredGroups db context, other ≠ row → ∀ subject, other.subject = some subject →
        Runtime.toLocaleLowerCase (jsTrim (normalizeUntrustedText subject)) ≠
          Runtime.toLocaleLowerCase (jsTrim (listedName row).value)) → Returns db context row

/-- A name that is not clipped is the group's own, and a group without one is not told by it. -/
theorem Told.subject (told : Told db context row) :
    ∃ subject, row.subject = some subject ∧ (listedName row).value = normalizeUntrustedText subject := by
  have whole := told.whole
  rw [listedName, clipJson_truncated, decide_eq_false_iff_not] at whole
  have value : (listedName row).value = groupName row := by rw [listedName, clipJson_value, kept_whole whole]
  cases named : row.subject with
  | some subject => exact ⟨subject, rfl, by rw [value, groupName, named]; rfl⟩
  | none =>
    have plain : Normalization.nfc "" = "" := Normalization.nfc_ascii "" (by simp)
    have empty : (listedName row).value = "" := by
      rw [value, groupName, named, Option.getD_none, normalizeUntrustedText, plain]
      rfl
    exact absurd (by rw [empty]; rfl) told.visible

/-! ### What a reference resolves to -/

theorem resolve_address {reference : String} (address : (jsTrim reference).toList.contains '@' = true) :
    resolveMonitoredGroup db context reference =
      if monitoredGroup db context (jsTrim reference) then some (jsTrim reference) else none := by
  rw [resolveMonitoredGroup, if_pos address]

/-- The rows a name is matched with. -/
def matching (db : Database) (context : ToolChatContext) (reference : String) : List StoredGroup :=
  (monitoredGroups db context).filter fun row => row.subject.any fun subject =>
    Runtime.toLocaleLowerCase (jsTrim (normalizeUntrustedText subject)) ==
      Runtime.toLocaleLowerCase (normalizeUntrustedText (jsTrim reference))

theorem resolve_name {reference : String} (name : (jsTrim reference).toList.contains '@' = false) :
    resolveMonitoredGroup db context reference =
      if Runtime.toLocaleLowerCase (normalizeUntrustedText (jsTrim reference)) = "" then none
      else match matching db context reference with
        | [row] => some row.groupJid
        | _ => none := by
  rw [resolveMonitoredGroup]
  simp only [name, Bool.false_eq_true, if_false]
  rfl

theorem mem_matching {reference : String} (name : (jsTrim reference).toList.contains '@' = false) {other : StoredGroup} :
    other ∈ matching db context reference ↔ other ∈ monitoredGroups db context ∧ Means reference other := by
  rw [matching, List.mem_filter]
  refine and_congr_right fun _ => ?_
  constructor
  · intro matched
    cases named : other.subject with
    | none =>
      rw [named] at matched
      cases matched
    | some subject =>
      rw [named, Option.any_some, beq_iff_eq] at matched
      exact .name subject name named matched
  · intro meant
    cases meant with
    | address address => rw [name] at address; cases address
    | name subject _ named same => rw [named, Option.any_some, same, beq_self_eq_true]

/-- Exactly one row answers to a name that resolves. -/
theorem resolve_name_iff (indexed : Indexed db) {reference : String} (name : (jsTrim reference).toList.contains '@' = false)
    (member : row ∈ monitoredGroups db context) :
    resolveMonitoredGroup db context reference = some row.groupJid ↔
      Runtime.toLocaleLowerCase (normalizeUntrustedText (jsTrim reference)) ≠ "" ∧ matching db context reference = [row] := by
  rw [resolve_name name]
  split
  · rename_i blank
    simp [blank]
  · rename_i visible
    constructor
    · intro resolved
      split at resolved
      · rename_i other only
        have listed : other ∈ matching db context reference := by
          rw [only]
          exact List.mem_singleton_self other
        have same := monitored_jid indexed member ((mem_matching name).mp listed).1 (Option.some.inj resolved)
        exact ⟨visible, by rw [only, same]⟩
      · cases resolved
    · rintro ⟨-, only⟩
      rw [only]

theorem scopedGroup_reference (usable : usableChatContext context = true) (direct : context.chatKind = .user) {input : Json}
    {reference : String} (given : stringField input "group" = some reference) (visible : jsTrim reference ≠ "") :
    scopedGroup db context input = resolveMonitoredGroup db context reference := by
  rw [scopedGroup, usable, direct]
  simp only [Bool.not_true, Bool.false_eq_true, if_false, given, visible]

theorem listed_address (indexed : Indexed db) (told : Told db context row)
    (address : (jsTrim (listedName row).value).toList.contains '@' = true) :
    resolveMonitoredGroup db context (listedName row).value = some row.groupJid ↔ jsTrim (listedName row).value = row.groupJid := by
  rw [resolve_address address]
  constructor
  · intro resolved
    split at resolved
    · exact Option.some.inj resolved
    · cases resolved
  · intro same
    rw [same, if_pos (monitoredGroup_of_mem indexed told.monitored)]

/-- The listed name of a group told by it reaches the group exactly when it finds its way back. -/
theorem listed_name_resolves (indexed : Indexed db) (told : Told db context row) :
    resolveMonitoredGroup db context (listedName row).value = some row.groupJid ↔ Returns db context row := by
  obtain ⟨subject, named, value⟩ := told.subject
  cases address : (jsTrim (listedName row).value).toList.contains '@' with
  | true =>
    rw [listed_address indexed told address]
    constructor
    · exact .address address
    · intro returns
      cases returns with
      | address _ same => exact same
      | name name => rw [address] at name; cases name
  | false =>
    have own : row.subject.any (fun subject => Runtime.toLocaleLowerCase (jsTrim (normalizeUntrustedText subject)) ==
        Runtime.toLocaleLowerCase (normalizeUntrustedText (jsTrim (listedName row).value))) = true ↔
        Runtime.toLocaleLowerCase (normalizeUntrustedText (jsTrim (listedName row).value)) =
          Runtime.toLocaleLowerCase (jsTrim (listedName row).value) := by
      rw [named, Option.any_some, beq_iff_eq, value]
      exact eq_comm
    rw [resolve_name_iff indexed address told.monitored, matching, filter_singleton (monitoredGroups_nodup indexed) told.monitored, own]
    constructor
    · rintro ⟨visible, same, others⟩
      rw [same] at visible
      refine .name address visible same fun other listed apart subject' shown clash => ?_
      have unmatched := others other listed apart
      rw [shown, Option.any_some, clash, same, beq_self_eq_true] at unmatched
      cases unmatched
    · intro returns
      cases returns with
      | address name => rw [address] at name; cases name
      | name _ visible same others =>
        refine ⟨by rw [same]; exact visible, same, fun other listed apart => ?_⟩
        cases shown : other.subject with
        | none => rfl
        | some subject' =>
          rw [Option.any_some, same]
          exact beq_eq_false_iff_ne.mpr (others other listed apart subject' shown)

omit [Runtime] [Normalization] in
theorem monitoredGroup_row {groupJid : String} (monitored : monitoredGroup db context groupJid = true) :
    ∃ row ∈ monitoredGroups db context, row.groupJid = groupJid := by
  obtain ⟨row, found, watched⟩ := (Option.any_eq_true _ _).mp monitored
  have key : row.key = (context.organizationId, context.instanceId, groupJid) := by simpa using List.find?_some found
  simp only [StoredGroup.key, Prod.mk.injEq] at key
  obtain ⟨organization, instance_, jid⟩ := key
  refine ⟨row, List.mem_filter.mpr ⟨List.mem_of_find?_eq_some found, ?_⟩, jid⟩
  simp [organization, instance_, watched]

/-- What a reference resolves to is the one monitored group it means. -/
theorem resolved_means (indexed : Indexed db) {reference groupJid : String}
    (resolved : resolveMonitoredGroup db context reference = some groupJid) :
    ∃ row ∈ monitoredGroups db context, Means reference row ∧
      ∀ other ∈ monitoredGroups db context, Means reference other → other = row := by
  by_cases address : (jsTrim reference).toList.contains '@' = true
  · rw [resolve_address address] at resolved
    split at resolved
    · rename_i monitored
      obtain ⟨row, member, jid⟩ := monitoredGroup_row monitored
      refine ⟨row, member, .address address jid, fun other listed meant => ?_⟩
      cases meant with
      | address _ same => exact monitored_jid indexed member listed (same.trans jid.symm)
      | name _ name => rw [address] at name; cases name
    · cases resolved
  · have name : (jsTrim reference).toList.contains '@' = false := by simpa using address
    rw [resolve_name name] at resolved
    split at resolved
    · cases resolved
    · split at resolved
      · rename_i row only
        have matched {other : StoredGroup} (listed : other ∈ monitoredGroups db context) (meant : Means reference other) :
            other ∈ [row] := only ▸ (mem_matching name).mpr ⟨listed, meant⟩
        have own : row ∈ matching db context reference := by
          rw [only]
          exact List.mem_singleton_self row
        obtain ⟨member, meant⟩ := (mem_matching name).mp own
        exact ⟨row, member, meant, fun other listed meant => List.mem_singleton.mp (matched listed meant)⟩
      · cases resolved

/-- A reference that means no monitored group, or more than one, resolves to nothing. -/
theorem ambiguous_unresolved (indexed : Indexed db) {reference : String}
    (unclear : (∀ row ∈ monitoredGroups db context, ¬ Means reference row) ∨
      ∃ row ∈ monitoredGroups db context, ∃ other ∈ monitoredGroups db context, row ≠ other ∧ Means reference row ∧ Means reference other) :
    resolveMonitoredGroup db context reference = none := by
  cases resolved : resolveMonitoredGroup db context reference with
  | none => rfl
  | some groupJid =>
    exfalso
    obtain ⟨row, member, meant, unique⟩ := resolved_means indexed resolved
    rcases unclear with nothing | ⟨a, listed, b, listed', apart, first, second⟩
    · exact nothing row member meant
    · exact apart ((unique a listed first).trans (unique b listed' second).symm)

end

def ownerChat : ToolChatContext := ⟨"org", "inst", .user, "62811@s.whatsapp.net", none, ["62811@s.whatsapp.net"]⟩

def calledGroup (subject : String) : StoredGroup := ⟨"org", "inst", "12@g.us", some subject, true, true⟩

def oneGroup (subject : String) : Database := ⟨[calledGroup subject], [], ⟨[], []⟩, []⟩

theorem oneGroup_indexed (subject : String) : Indexed (oneGroup subject) :=
  ⟨List.nodup_singleton _, List.nodup_nil, List.nodup_nil⟩

theorem oneGroup_monitored (subject : String) : monitoredGroups (oneGroup subject) ownerChat = [calledGroup subject] := rfl

theorem oneGroup_told [Runtime] [Normalization] {subject : String} (visible : jsTrim (listedName (calledGroup subject)).value ≠ "")
    (whole : (listedName (calledGroup subject)).truncated = false) : Told (oneGroup subject) ownerChat (calledGroup subject) := by
  refine ⟨List.mem_singleton_self _, visible, whole, fun other listed apart => ?_⟩
  rw [oneGroup_monitored, List.mem_singleton] at listed
  exact absurd listed apart

end GroupButler.Tools
