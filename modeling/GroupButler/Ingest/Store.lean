import GroupButler.Foundation.Collection
import GroupButler.Foundation.Run
import GroupButler.Ingest.External

/-!
# The `messages` collection

`save` upserts by organization, instance and message id. What identifies a message is written when
its row is created; what a re-parse may improve is written every time.
-/

namespace GroupButler.Ingest
open Foundation Store

/-- The unique index of `messages`. -/
structure MessageKey where
  organizationId : String
  instanceId : String
  waMessageId : String
  deriving DecidableEq, Repr

structure IdentityFields where
  key : MessageKey
  groupJid : String
  chatJid : String
  isGroup : Bool
  senderJid : String
  fromMe : Bool
  historical : Bool
  timestamp : Time
  receivedAt : Time
  deriving DecidableEq, Repr

structure MessageFields where
  senderLid : String
  pushName : String
  serverSkewMs : Int
  kind : Kind
  text : String
  textSearch : String
  rawSearch : String
  links : List String
  mentions : List String
  raw : RawMessage
  parseState : ParseState
  parseErrors : List String
  parseVersion : Nat
  deriving Repr

structure MessageRow where
  identity : IdentityFields
  content : MessageFields
  media : Media
  mediaAttempts : Nat := 0
  /-- `flags.revoked` is true. -/
  revoked : Bool := false
  deriving Repr

def MessageRow.key (row : MessageRow) : MessageKey := row.identity.key

def MessageDoc.key (doc : MessageDoc) : MessageKey := ⟨doc.organizationId, doc.instanceId, doc.waMessageId⟩

/-- `$setOnInsert` -/
def identityFields (doc : MessageDoc) : IdentityFields where
  key := doc.key
  groupJid := doc.groupJid
  chatJid := doc.chatJid
  isGroup := doc.isGroup
  senderJid := doc.senderJid
  fromMe := doc.fromMe
  historical := doc.historical
  timestamp := doc.timestamp
  receivedAt := doc.receivedAt

/-- `$set` -/
def messageFields (doc : MessageDoc) : MessageFields where
  senderLid := doc.senderLid
  pushName := doc.pushName
  serverSkewMs := doc.serverSkewMs
  kind := doc.kind
  text := doc.text
  textSearch := doc.textSearch
  rawSearch := doc.rawSearch
  links := doc.links
  mentions := doc.mentions
  raw := doc.raw
  parseState := doc.parseState
  parseErrors := doc.parseErrors
  parseVersion := doc.schemaVersion

/-- The parse-time descriptor a new row starts with. -/
def freshRow (doc : MessageDoc) : MessageRow where
  identity := identityFields doc
  content := messageFields doc
  media := { status := doc.media.status, kind := doc.media.kind, declaredType := doc.media.declaredType }

/-- One upsert of `Save`, whose bulk write is unordered: the upserts of a flush land on their own. -/
def saveOne (rows : List MessageRow) (doc : MessageDoc) : List MessageRow :=
  upsertOne (fun row => row.key == doc.key) (fun row => { row with content := messageFields doc })
    (freshRow doc) rows

def saveMedia (rows : List MessageRow) (key : MessageKey) (media : Media) : List MessageRow :=
  updateOne (fun row => row.key == key)
    (fun row => { row with media := media, mediaAttempts := row.mediaAttempts + 1 }) rows

/-- The unique index: no two rows of one key. -/
def UniqueRows (rows : List MessageRow) : Prop := (rows.map MessageRow.key).Nodup

/-- What an upsert does: rewrite the content of the one row of its key, or add that row. -/
theorem saveOne_cases {rows : List MessageRow} (unique : UniqueRows rows) (doc : MessageDoc) :
    (∃ row ∈ rows, row.key = doc.key ∧ saveOne rows doc =
      rows.map fun row => if row.key = doc.key then { row with content := messageFields doc } else row) ∨
    ((∀ row ∈ rows, row.key ≠ doc.key) ∧ saveOne rows doc = rows ++ [freshRow doc]) := by
  unfold saveOne upsertOne
  split
  · rename_i matched
    obtain ⟨row, member, same⟩ := List.any_eq_true.mp matched
    refine Or.inl ⟨row, member, beq_iff_eq.mp same, ?_⟩
    rw [updateOne_eq_updateMany (k := doc.key) unique (by simp)]
    simp [updateMany]
  · rename_i absent
    refine Or.inr ⟨fun row member same => absent ?_, rfl⟩
    exact List.any_eq_true.mpr ⟨row, member, beq_iff_eq.mpr same⟩

theorem saveOne_identities (rows : List MessageRow) (doc : MessageDoc) :
    (saveOne rows doc).map MessageRow.identity = rows.map MessageRow.identity ∨
      (∀ row ∈ rows, row.key ≠ doc.key) ∧ saveOne rows doc = rows ++ [freshRow doc] := by
  unfold saveOne upsertOne
  split
  · exact Or.inl (map_updateOne fun _ _ _ => rfl)
  · rename_i absent
    exact Or.inr ⟨by simpa using absent, rfl⟩

theorem saveOne_unique {rows : List MessageRow} (unique : UniqueRows rows) (doc : MessageDoc) :
    UniqueRows (saveOne rows doc) := by
  rcases saveOne_cases unique doc with ⟨_, _, _, saved⟩ | ⟨absent, saved⟩
  · rw [saved, UniqueRows, List.map_map]
    have keys : ∀ row ∈ rows, (MessageRow.key ∘ fun row : MessageRow =>
        if row.key = doc.key then { row with content := messageFields doc } else row) row = row.key := by
      intro row _
      simp only [Function.comp]
      split <;> rfl
    rw [List.map_congr_left keys]
    exact unique
  · rw [saved, UniqueRows, List.map_append]
    refine List.nodup_append.mpr ⟨unique, by simp, ?_⟩
    intro key member fresh isFresh
    obtain ⟨row, present, rfl⟩ := List.mem_map.mp member
    obtain rfl : fresh = doc.key := by simpa [freshRow, MessageRow.key, identityFields] using isFresh
    exact absent row present

theorem saveMedia_keys (rows : List MessageRow) (key : MessageKey) (media : Media) :
    (saveMedia rows key media).map MessageRow.key = rows.map MessageRow.key :=
  map_updateOne fun _ _ _ => rfl

end GroupButler.Ingest
