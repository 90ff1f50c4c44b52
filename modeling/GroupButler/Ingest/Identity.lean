import GroupButler.Ingest.Store

/-!
# Whose content a row holds

A row's chat and sender come from the first event stored under its message id, its content from the
last. They are the same source exactly when no two stored events share a message id across chats or
senders.
-/

namespace GroupButler.Ingest
open Foundation Store

/-- One event as a worker took it: its tenant, its clock, and what became of the attachment. -/
structure Delivery where
  event : ExternalEvent
  organizationId : String
  instanceId : String
  receivedAt : Time
  media : Media

inductive Event where
  | deliver (delivery : Delivery)
  | storeMedia (key : MessageKey) (media : Media)

section
variable [Unicode] (limits : RawLimits)

/-- The document of an accepted delivery. -/
def Delivery.doc (delivery : Delivery) : Option MessageDoc :=
  match externalDoc limits delivery.event delivery.organizationId delivery.instanceId delivery.receivedAt with
  | .error _ => none
  | .ok doc => some { doc with media := delivery.media }

def Event.doc : Event → Option MessageDoc
  | .deliver delivery => delivery.doc limits
  | .storeMedia _ _ => none

/-- Every document whose upsert landed, in order. -/
def accepted (events : List Event) : List MessageDoc := events.filterMap (Event.doc limits)

def step (rows : List MessageRow) : Event → List MessageRow
  | .deliver delivery =>
    match delivery.doc limits with
    | none => rows
    | some doc => saveOne rows doc
  | .storeMedia key media => saveMedia rows key media

end

def SameSource (row : MessageRow) (doc : MessageDoc) : Prop :=
  row.identity.groupJid = doc.groupJid ∧ row.identity.senderJid = doc.senderJid

/-- Every row's content comes from an event of its own chat and sender, and every event has a row of
its own chat and sender. -/
def Intact (docs : List MessageDoc) (rows : List MessageRow) : Prop :=
  (∀ row ∈ rows, ∃ doc ∈ docs, SameSource row doc ∧ row.content = messageFields doc) ∧
  (∀ doc ∈ docs, ∃ row ∈ rows, row.key = doc.key ∧ SameSource row doc)

/-- The event names a message and a chat. -/
def Delivery.Named (delivery : Delivery) : Prop :=
  goTrimSpace delivery.event.messageId ≠ "" ∧ goTrimSpace delivery.event.chatId ≠ ""

/-- No message id of one instance names messages of two chats or two senders. -/
def OneSource (events : List Event) : Prop :=
  ∀ first second, .deliver first ∈ events → .deliver second ∈ events → first.Named → second.Named →
    first.organizationId = second.organizationId → first.instanceId = second.instanceId →
    goTrimSpace first.event.messageId = goTrimSpace second.event.messageId →
      goTrimSpace first.event.chatId = goTrimSpace second.event.chatId ∧
        goTrimSpace first.event.senderId = goTrimSpace second.event.senderId

/-- Documents of one key have one chat and one sender. -/
def Undivided (docs : List MessageDoc) : Prop :=
  ∀ first ∈ docs, ∀ second ∈ docs, first.key = second.key →
    first.groupJid = second.groupJid ∧ first.senderJid = second.senderJid

/-- Where each half of a row comes from. -/
structure Provenance (docs : List MessageDoc) (rows : List MessageRow) : Prop where
  unique : UniqueRows rows
  identity : ∀ row ∈ rows, ∃ doc ∈ docs, row.identity = identityFields doc
  content : ∀ row ∈ rows, ∃ doc ∈ docs, doc.key = row.key ∧ row.content = messageFields doc
  stored : ∀ doc ∈ docs, ∃ row ∈ rows, row.key = doc.key

theorem provenance_nil : Provenance [] [] :=
  ⟨List.nodup_nil, by simp, by simp, by simp⟩

theorem saveOne_provenance {docs : List MessageDoc} {rows : List MessageRow} (doc : MessageDoc)
    (before : Provenance docs rows) : Provenance (docs ++ [doc]) (saveOne rows doc) := by
  have here : doc ∈ docs ++ [doc] := by simp
  have earlier : ∀ old ∈ docs, old ∈ docs ++ [doc] := fun old member => List.mem_append_left _ member
  have unique := saveOne_unique before.unique doc
  rcases saveOne_cases before.unique doc with ⟨matched, present, same, saved⟩ | ⟨absent, saved⟩
  · let rewrite (row : MessageRow) : MessageRow :=
      if row.key = doc.key then { row with content := messageFields doc } else row
    have keptIdentity : ∀ row, (rewrite row).identity = row.identity := by
      intro row
      simp only [rewrite]
      split <;> rfl
    have keptKey : ∀ row, (rewrite row).key = row.key := fun row => congrArg IdentityFields.key (keptIdentity row)
    have rows' : saveOne rows doc = rows.map rewrite := saved
    refine ⟨unique, ?_, ?_, ?_⟩
    · intro row member
      rw [rows'] at member
      obtain ⟨old, oldMember, rfl⟩ := List.mem_map.mp member
      obtain ⟨source, sourceMember, from_⟩ := before.identity old oldMember
      exact ⟨source, earlier source sourceMember, (keptIdentity old).trans from_⟩
    · intro row member
      rw [rows'] at member
      obtain ⟨old, oldMember, rfl⟩ := List.mem_map.mp member
      by_cases own : old.key = doc.key
      · exact ⟨doc, here, by rw [keptKey, own], by simp only [rewrite, if_pos own]⟩
      · obtain ⟨source, sourceMember, sameKey, from_⟩ := before.content old oldMember
        exact ⟨source, earlier source sourceMember, by rw [keptKey, sameKey], by simp only [rewrite, if_neg own, from_]⟩
    · intro source member
      rw [rows']
      rcases List.mem_append.mp member with old | new
      · obtain ⟨row, rowMember, rowKey⟩ := before.stored source old
        exact ⟨rewrite row, List.mem_map_of_mem rowMember, (keptKey row).trans rowKey⟩
      · obtain rfl := List.mem_singleton.mp new
        exact ⟨rewrite matched, List.mem_map_of_mem present, (keptKey matched).trans same⟩
  · refine ⟨unique, ?_, ?_, ?_⟩
    all_goals rw [saved]
    · intro row member
      rcases List.mem_append.mp member with old | new
      · obtain ⟨source, sourceMember, from_⟩ := before.identity row old
        exact ⟨source, earlier source sourceMember, from_⟩
      · obtain rfl := List.mem_singleton.mp new
        exact ⟨doc, here, rfl⟩
    · intro row member
      rcases List.mem_append.mp member with old | new
      · obtain ⟨source, sourceMember, sameKey, from_⟩ := before.content row old
        exact ⟨source, earlier source sourceMember, sameKey, from_⟩
      · obtain rfl := List.mem_singleton.mp new
        exact ⟨doc, here, rfl, rfl⟩
    · intro source member
      rcases List.mem_append.mp member with old | new
      · obtain ⟨row, rowMember, rowKey⟩ := before.stored source old
        exact ⟨row, List.mem_append_left _ rowMember, rowKey⟩
      · obtain rfl := List.mem_singleton.mp new
        exact ⟨freshRow source, by simp, rfl⟩

theorem saveMedia_provenance {docs : List MessageDoc} {rows : List MessageRow} (key : MessageKey) (media : Media)
    (before : Provenance docs rows) : Provenance docs (saveMedia rows key media) := by
  refine ⟨?_, ?_, ?_, ?_⟩
  · rw [UniqueRows, saveMedia_keys]
    exact before.unique
  · exact forall_mem_updateOne before.identity fun _ _ _ kept => kept
  · exact forall_mem_updateOne before.content fun _ _ _ kept => kept
  · intro doc member
    obtain ⟨row, rowMember, rowKey⟩ := before.stored doc member
    have keys : row.key ∈ (saveMedia rows key media).map MessageRow.key := by
      rw [saveMedia_keys]
      exact List.mem_map_of_mem rowMember
    obtain ⟨next, nextMember, nextKey⟩ := List.mem_map.mp keys
    exact ⟨next, nextMember, nextKey.trans rowKey⟩

theorem intact_iff_of_provenance {docs : List MessageDoc} {rows : List MessageRow}
    (sources : Provenance docs rows) : Intact docs rows ↔ Undivided docs := by
  constructor
  · intro intact first firstMember second secondMember same
    obtain ⟨row, member, rowKey, sameFirst⟩ := intact.2 first firstMember
    obtain ⟨other, otherMember, otherKey, sameSecond⟩ := intact.2 second secondMember
    have one : row = other :=
      List.inj_on_of_nodup_map sources.unique member otherMember (rowKey.trans (same.trans otherKey.symm))
    subst one
    exact ⟨sameFirst.1.symm.trans sameSecond.1, sameFirst.2.symm.trans sameSecond.2⟩
  · intro undivided
    have source : ∀ row ∈ rows, ∀ doc ∈ docs, row.key = doc.key → SameSource row doc := by
      intro row member doc docMember rowKey
      obtain ⟨creator, creatorMember, identity⟩ := sources.identity row member
      have created : row.key = creator.key := congrArg IdentityFields.key identity
      obtain ⟨chat, sender⟩ := undivided creator creatorMember doc docMember (created.symm.trans rowKey)
      exact ⟨(congrArg IdentityFields.groupJid identity).trans chat,
        (congrArg IdentityFields.senderJid identity).trans sender⟩
    refine ⟨fun row member => ?_, fun doc docMember => ?_⟩
    · obtain ⟨doc, docMember, docKey, content⟩ := sources.content row member
      exact ⟨doc, docMember, source row member doc docMember docKey.symm, content⟩
    · obtain ⟨row, member, rowKey⟩ := sources.stored doc docMember
      exact ⟨row, member, rowKey, source row member doc docMember rowKey⟩

section
variable [Unicode] (limits : RawLimits)

theorem step_provenance {docs : List MessageDoc} {rows : List MessageRow} (event : Event)
    (before : Provenance docs rows) :
    Provenance (docs ++ (event.doc limits).toList) (step limits rows event) := by
  cases event with
  | storeMedia key media =>
    simp only [Event.doc, Option.toList_none, List.append_nil]
    exact saveMedia_provenance key media before
  | deliver delivery =>
    simp only [Event.doc, step]
    cases delivery.doc limits with
    | none => simpa using before
    | some doc => exact saveOne_provenance doc before

theorem run_provenance {docs : List MessageDoc} {rows : List MessageRow} (events : List Event)
    (before : Provenance docs rows) :
    Provenance (docs ++ accepted limits events) (run (step limits) rows events) := by
  induction events generalizing docs rows with
  | nil => simpa [accepted] using before
  | cons event events ih =>
    have after := ih (step_provenance limits event before)
    have front : accepted limits (event :: events) = (event.doc limits).toList ++ accepted limits events := by
      simp only [accepted, List.filterMap_cons]
      cases event.doc limits <;> rfl
    rwa [front, ← List.append_assoc]

theorem delivery_doc_of_named {delivery : Delivery} (named : delivery.Named) :
    ∃ doc, delivery.doc limits = some doc := by
  unfold Delivery.doc externalDoc
  dsimp only
  rw [if_neg (not_or.mpr named)]
  exact ⟨_, rfl⟩

theorem delivery_doc {delivery : Delivery} {doc : MessageDoc} (produced : delivery.doc limits = some doc) :
    delivery.Named ∧
      doc.key = ⟨delivery.organizationId, delivery.instanceId, goTrimSpace delivery.event.messageId⟩ ∧
      doc.groupJid = goTrimSpace delivery.event.chatId ∧ doc.senderJid = goTrimSpace delivery.event.senderId := by
  unfold Delivery.doc externalDoc at produced
  dsimp only at produced
  by_cases unnamed : goTrimSpace delivery.event.messageId = "" ∨ goTrimSpace delivery.event.chatId = ""
  · rw [if_pos unnamed] at produced
    cases produced
  · rw [if_neg unnamed] at produced
    obtain rfl := Option.some.inj produced
    exact ⟨not_or.mp unnamed, rfl, rfl, rfl⟩

theorem mem_accepted {events : List Event} {doc : MessageDoc} :
    doc ∈ accepted limits events ↔ ∃ delivery, .deliver delivery ∈ events ∧ delivery.doc limits = some doc := by
  rw [accepted, List.mem_filterMap]
  constructor
  · rintro ⟨event, member, produced⟩
    cases event with
    | deliver delivery => exact ⟨delivery, member, produced⟩
    | storeMedia key media => cases produced
  · rintro ⟨delivery, member, produced⟩
    exact ⟨.deliver delivery, member, produced⟩

theorem undivided_iff (events : List Event) : Undivided (accepted limits events) ↔ OneSource events := by
  constructor
  · intro undivided first second firstMember secondMember firstNamed secondNamed organization instance_ id
    obtain ⟨firstDoc, firstProduced⟩ := delivery_doc_of_named limits firstNamed
    obtain ⟨secondDoc, secondProduced⟩ := delivery_doc_of_named limits secondNamed
    obtain ⟨_, firstKey, firstChat, firstSender⟩ := delivery_doc limits firstProduced
    obtain ⟨_, secondKey, secondChat, secondSender⟩ := delivery_doc limits secondProduced
    rw [← firstChat, ← secondChat, ← firstSender, ← secondSender]
    refine undivided firstDoc ?_ secondDoc ?_ (by rw [firstKey, secondKey, organization, instance_, id])
    · exact (mem_accepted limits).mpr ⟨first, firstMember, firstProduced⟩
    · exact (mem_accepted limits).mpr ⟨second, secondMember, secondProduced⟩
  · intro oneSource firstDoc firstMember secondDoc secondMember same
    obtain ⟨first, firstDelivered, firstProduced⟩ := (mem_accepted limits).mp firstMember
    obtain ⟨second, secondDelivered, secondProduced⟩ := (mem_accepted limits).mp secondMember
    obtain ⟨firstNamed, firstKey, firstChat, firstSender⟩ := delivery_doc limits firstProduced
    obtain ⟨secondNamed, secondKey, secondChat, secondSender⟩ := delivery_doc limits secondProduced
    rw [firstKey, secondKey] at same
    obtain ⟨organization, instance_, id⟩ := MessageKey.mk.inj same
    rw [firstChat, secondChat, firstSender, secondSender]
    exact oneSource first second firstDelivered secondDelivered firstNamed secondNamed organization instance_ id

/-- Over every sequence of deliveries, rows keep the content of their own chat and sender exactly
when no message id is shared between chats or senders. -/
theorem rows_intact_iff (events : List Event) :
    Intact (accepted limits events) (run (step limits) [] events) ↔ OneSource events := by
  have sources := run_provenance limits events provenance_nil
  rw [List.nil_append] at sources
  exact (intact_iff_of_provenance sources).trans (undivided_iff limits events)

end

def bridgeText (messageId chatId senderId body : String) : Event :=
  .deliver ⟨{ messageId, chatId, senderId, body, timestamp := 1700000000 }, "o", "i", 1700000001000,
    { status := .none, kind := none, declaredType := none }⟩

/-- A second sender who reuses a message id in another chat replaces the text of the first one's row. -/
theorem reused_id_replaces_text :
    letI := Unicode.ascii
    let events := [bridgeText "ABC" "1@g.us" "owner@s.whatsapp.net" "hello",
      bridgeText "ABC" "2@g.us" "guest@s.whatsapp.net" "approve 123456"]
    (run (step {}) [] events).map (fun row =>
        (row.identity.groupJid, row.identity.senderJid, row.content.text)) =
      [("1@g.us", "owner@s.whatsapp.net", "approve 123456")] ∧
    ¬ Intact (accepted {} events) (run (step {}) [] events) := by
  let tables := Unicode.ascii
  intro events
  have rows : (run (step {}) [] events).map (fun row =>
      (row.identity.groupJid, row.identity.senderJid, row.content.text)) =
        [("1@g.us", "owner@s.whatsapp.net", "approve 123456")] := by decide
  have chats : (accepted {} events).map MessageDoc.groupJid = ["1@g.us", "2@g.us"] := by decide
  refine ⟨rows, fun intact => ?_⟩
  have second : "2@g.us" ∈ (accepted {} events).map MessageDoc.groupJid := by simp [chats]
  obtain ⟨doc, docMember, docChat⟩ := List.mem_map.mp second
  obtain ⟨row, member, _, chat, _⟩ := intact.2 doc docMember
  have stored := List.mem_map_of_mem (f := fun row : MessageRow =>
    (row.identity.groupJid, row.identity.senderJid, row.content.text)) member
  rw [rows, List.mem_singleton] at stored
  have first : row.identity.groupJid = "1@g.us" := congrArg Prod.fst stored
  rw [chat, docChat] at first
  exact absurd first (by decide)

end GroupButler.Ingest
