import GroupButler.Ingest.Attachment

/-!
# What an object key identifies

An attachment is filed under its stem: the chat with two characters replaced, the month of the attempt,
and the message id. The bytes and their sidecar differ from other stems' objects, and only from those.
-/

namespace GroupButler.Ingest
open Foundation Store

/-! ### Extensions -/

theorem suffix_sep_inj {sep : Char} {a b x y : List Char} (hx : sep ∉ x) (hy : sep ∉ y) (h : a ++ sep :: x = b ++ sep :: y) :
    a = b ∧ x = y := by
  have back : x.reverse ++ sep :: a.reverse = y.reverse ++ sep :: b.reverse := by
    simpa using congrArg List.reverse h
  obtain ⟨ends, starts⟩ := append_sep_inj (by simpa using hx) (by simpa using hy) back
  exact ⟨List.reverse_injective starts, List.reverse_injective ends⟩

/-- The extension of the bytes: from what they are, then from the document's name. -/
def attachmentExt [Unicode] (data : Bytes) (fileName : String) : String :=
  match sniffMedia data with
  | none => unparsedExt
  | some mime => extensionForMime mime fileName

theorem mimeExtensions_known : ∀ entry ∈ mimeExtensions, entry.2 ∈ unparsedExt :: knownExtensions := by decide

theorem lookup_mem {α β : Type} [BEq α] [LawfulBEq α] {key : α} {value : β} {entries : List (α × β)}
    (found : entries.lookup key = some value) : (key, value) ∈ entries := by
  induction entries with
  | nil => cases found
  | cons entry entries ih =>
    obtain ⟨other, stored⟩ := entry
    rw [List.lookup_cons] at found
    split at found
    · rename_i same
      obtain rfl := Option.some.inj found
      rw [eq_of_beq same]
      exact List.mem_cons_self
    · exact List.mem_cons_of_mem _ (ih found)

theorem attachmentExt_known [Unicode] (data : Bytes) (fileName : String) :
    attachmentExt data fileName ∈ unparsedExt :: knownExtensions := by
  have mapped : ∀ mime, (mimeExtensions.lookup mime).getD unparsedExt ∈ unparsedExt :: knownExtensions := by
    intro mime
    cases found : mimeExtensions.lookup mime with
    | none => exact List.mem_cons_self
    | some ext => exact mimeExtensions_known _ (lookup_mem found)
  unfold attachmentExt
  split
  · exact List.mem_cons_self
  · unfold extensionForMime
    dsimp only
    split
    · exact mapped _
    · split
      · rename_i named
        unfold declaredExtension at named ⊢
        split at named
        · rename_i dotted
          rw [if_pos dotted]
          dsimp only at named ⊢
          split at named
          · rename_i known
            rw [if_pos known]
            exact List.mem_cons_of_mem _ known
          · simp at named
        · simp at named
      · exact mapped _

theorem known_plain : ∀ ext ∈ unparsedExt :: knownExtensions, '.' ∉ ext.toList ∧ ext.toList ≠ "json".toList := by decide

/-! ### Stems -/

/-- The month an attempt is filed under. -/
def monthOf (moment : Time) : Int × Nat :=
  let date := dateOfDays (moment / 86400000)
  (date.year, date.month)

/-- The key below its instance, without the extension. -/
def objectStem (groupJID messageID : String) (moment : Time) : List Char :=
  (jidKey groupJID).toList ++ '/' :: (renderYear (monthOf moment).1 ++ '/' :: (padded 2 (monthOf moment).2 ++ '/' :: messageID.toList))

theorem toList_objectKeyAt (orgID instanceID groupJID messageID ext : String) (moment : Time) :
    (objectKeyAt orgID instanceID groupJID messageID ext moment).toList =
      ("org/" ++ orgID ++ "/instance/" ++ instanceID ++ "/group/").toList ++
        (objectStem groupJID messageID moment ++ '.' :: ext.toList) := by
  unfold objectKeyAt objectStem monthOf
  simp [String.toList_append]

theorem slash_not_mem_renderYear (year : Int) : '/' ∉ renderYear year := by
  unfold renderYear
  split
  · intro member
    rcases List.mem_cons.mp member with dash | digit
    · exact absurd dash (by decide)
    · exact sep_not_padded (by decide) _ _ digit
  · exact sep_not_padded (by decide) _ _

theorem month_append_inj {moment moment' : Time} {rest rest' : List Char}
    (h : renderYear (monthOf moment).1 ++ '/' :: (padded 2 (monthOf moment).2 ++ '/' :: rest) =
      renderYear (monthOf moment').1 ++ '/' :: (padded 2 (monthOf moment').2 ++ '/' :: rest')) :
    monthOf moment = monthOf moment' ∧ rest = rest' := by
  obtain ⟨years, h⟩ := append_sep_inj (slash_not_mem_renderYear _) (slash_not_mem_renderYear _) h
  obtain ⟨months, rests⟩ := append_sep_inj (sep_not_padded (by decide) _ _) (sep_not_padded (by decide) _ _) h
  have year := (renderYear_inj (congrArg (· ++ ['-']) years)).1
  exact ⟨Prod.ext year (padded_inj months), rests⟩

/-- Where the chats hold no slash, a stem says the chat's key, the month and the message. -/
theorem objectStem_inj {groupJID groupJID' messageID messageID' : String} {moment moment' : Time}
    (plain : '/' ∉ (jidKey groupJID).toList) (plain' : '/' ∉ (jidKey groupJID').toList) :
    objectStem groupJID messageID moment = objectStem groupJID' messageID' moment' ↔
      jidKey groupJID = jidKey groupJID' ∧ monthOf moment = monthOf moment' ∧ messageID = messageID' := by
  constructor
  · intro same
    obtain ⟨chats, rest⟩ := append_sep_inj plain plain' same
    obtain ⟨months, messages⟩ := month_append_inj rest
    exact ⟨String.toList_inj.mp chats, months, String.toList_inj.mp messages⟩
  · rintro ⟨chats, months, rfl⟩
    rw [objectStem, objectStem, chats, months]

/-- One chat and one message are filed under one stem within a month, and under another one in another. -/
theorem objectStem_month {groupJID messageID : String} {moment moment' : Time} :
    objectStem groupJID messageID moment = objectStem groupJID messageID moment' ↔ monthOf moment = monthOf moment' := by
  constructor
  · intro same
    exact (month_append_inj (List.cons.inj (List.append_cancel_left same)).2).1
  · intro same
    rw [objectStem, objectStem, same]

/-! ### Keys -/

section
variable {orgID instanceID groupJID groupJID' messageID messageID' : String} {moment moment' : Time}

theorem objectKeyAt_inj {ext ext' : String} (plain : '.' ∉ ext.toList) (plain' : '.' ∉ ext'.toList)
    (same : objectKeyAt orgID instanceID groupJID messageID ext moment =
      objectKeyAt orgID instanceID groupJID' messageID' ext' moment') :
    objectStem groupJID messageID moment = objectStem groupJID' messageID' moment' ∧ ext = ext' := by
  have chars := congrArg String.toList same
  rw [toList_objectKeyAt, toList_objectKeyAt] at chars
  obtain ⟨stems, exts⟩ := suffix_sep_inj plain plain' (List.append_cancel_left chars)
  exact ⟨stems, String.toList_inj.mp exts⟩

/-- The bytes are never filed under another attachment's sidecar. -/
theorem objectKeyAt_ne_sidecar {ext : String} (known : ext ∈ unparsedExt :: knownExtensions) :
    objectKeyAt orgID instanceID groupJID messageID ext moment ≠
      objectKeyAt orgID instanceID groupJID' messageID' sidecarExt moment' := by
  intro same
  have chars := congrArg String.toList same
  rw [toList_objectKeyAt, toList_objectKeyAt] at chars
  have meta_json : '.' :: sidecarExt.toList = ".meta".toList ++ '.' :: "json".toList := by decide
  have tails := List.append_cancel_left chars
  rw [meta_json, ← List.append_assoc] at tails
  exact (known_plain ext known).2 (suffix_sep_inj (known_plain ext known).1 (by decide) tails).2

theorem sidecar_inj
    (same : objectKeyAt orgID instanceID groupJID messageID sidecarExt moment =
      objectKeyAt orgID instanceID groupJID' messageID' sidecarExt moment') :
    objectStem groupJID messageID moment = objectStem groupJID' messageID' moment' := by
  have chars := congrArg String.toList same
  rw [toList_objectKeyAt, toList_objectKeyAt] at chars
  exact List.append_cancel_right (List.append_cancel_left chars)

theorem objectKeyAt_stem (ext : String)
    (same : objectStem groupJID messageID moment = objectStem groupJID' messageID' moment') :
    objectKeyAt orgID instanceID groupJID messageID ext moment = objectKeyAt orgID instanceID groupJID' messageID' ext moment' := by
  rw [← String.toList_inj, toList_objectKeyAt, toList_objectKeyAt, same]

end

/-! ### Attempts -/

/-- The bytes and their sidecar are in the bucket. -/
def Media.Complete (media : Media) : Prop := media.status = .stored ∨ media.status = .unparsed

instance (media : Media) : Decidable media.Complete := inferInstanceAs (Decidable (_ ∨ _))

theorem persist_complete {publicBaseURL key sidecarKey : String} {attempt : Attempt} {media : Media}
    (complete : (persist publicBaseURL key sidecarKey attempt media).media.Complete) :
    (persist publicBaseURL key sidecarKey attempt media).objects = [key, sidecarKey] := by
  unfold persist at complete ⊢
  split at complete
  · rcases complete with failed | failed <;> cases failed
  · dsimp only at complete ⊢
    split at complete
    · rcases complete with failed | failed <;> cases failed
    · rfl

section
variable [Unicode] [GoLibrary]

omit [GoLibrary] in
theorem downloadFailure_incomplete (media : Media) (err : ReadError) : ¬ (downloadFailure media err).Complete := by
  unfold downloadFailure
  dsimp only
  split
  · rintro (stored | unparsed)
    · cases stored
    · cases unparsed
  · rintro (stored | unparsed)
    · cases stored
    · cases unparsed

theorem pipelineStore_complete {ingest : ExternalIngest} {publicBaseURL : String} {attempt : Attempt} {doc : MessageDoc}
    {moment : Time} (complete : (pipelineStore ingest publicBaseURL attempt doc moment).media.Complete) :
    ∃ data, attempt.file = .ok data ∧
      (pipelineStore ingest publicBaseURL attempt doc moment).objects =
        [attachmentExt data doc.media.fileName, sidecarExt].map fun ext =>
          objectKeyAt ingest.orgID ingest.instanceID doc.groupJid doc.waMessageId ext moment := by
  unfold pipelineStore at complete ⊢
  dsimp only at complete ⊢
  split at complete
  · rcases complete with status | status <;> cases status
  · rename_i not_view_once
    rw [if_neg not_view_once]
    split at complete
    · rename_i err _
      exact absurd complete (downloadFailure_incomplete _ err)
    · rename_i data read
      refine ⟨data, read, ?_⟩
      split at complete
      · rcases complete with status | status <;> cases status
      · rename_i small
        simp only [if_neg small]
        unfold attachmentExt
        cases sniffed : sniffMedia data with
        | none =>
          simp only [sniffed] at complete ⊢
          exact persist_complete complete
        | some mime =>
          simp only [sniffed] at complete ⊢
          exact persist_complete complete

/-- An attachment the ingest path accepted and filed, at one attempt. -/
structure Filed (ingest : ExternalIngest) where
  limits : RawLimits
  attempt : Attempt
  evt : ExternalEvent
  receivedAt : Time
  doc : MessageDoc
  objects : List String
  accepted : ingestDoc limits ingest attempt evt receivedAt = .ok (doc, objects)
  complete : doc.media.Complete

omit [GoLibrary] in
theorem externalDoc_fileName {limits : RawLimits} {evt : ExternalEvent} {organizationId instanceId : String}
    {receivedAt : Time} {doc : MessageDoc}
    (h : externalDoc limits evt organizationId instanceId receivedAt = .ok doc) :
    doc.media.fileName = externalFileName evt ∧ doc.groupJid = goTrimSpace evt.chatId ∧
      doc.waMessageId = goTrimSpace evt.messageId ∧ (doc.media.status = .pending ∨ doc.media.status = .none) := by
  unfold externalDoc at h
  dsimp only at h
  split at h
  · cases h
  · obtain rfl := Except.ok.inj h
    refine ⟨rfl, rfl, rfl, ?_⟩
    show (if evt.hasMedia then MediaStatus.pending else .none) = .pending ∨
      (if evt.hasMedia then MediaStatus.pending else .none) = .none
    split
    · exact Or.inl rfl
    · exact Or.inr rfl

theorem Filed.objects_eq {ingest : ExternalIngest} (filed : Filed ingest) :
    ∃ data, filed.attempt.file = .ok data ∧ filed.doc.groupJid = goTrimSpace filed.evt.chatId ∧
      filed.doc.waMessageId = goTrimSpace filed.evt.messageId ∧
      filed.objects = [attachmentExt data (externalFileName filed.evt), sidecarExt].map fun ext =>
        objectKeyAt ingest.orgID ingest.instanceID filed.doc.groupJid filed.doc.waMessageId ext filed.receivedAt := by
  obtain ⟨limits, attempt, evt, receivedAt, doc, objects, accepted, complete⟩ := filed
  dsimp only
  unfold ingestDoc at accepted
  split at accepted
  · cases accepted
  · rename_i source parsed
    obtain ⟨rfl, rfl⟩ := Prod.mk.inj (Except.ok.inj accepted)
    obtain ⟨fileName, chat, message, status⟩ := externalDoc_fileName parsed
    unfold storeMedia at complete ⊢
    split at complete
    · rename_i idle
      rcases status with pending | none
      · exact absurd pending idle
      · rcases complete with stored | unparsed
        · rw [none] at stored
          cases stored
        · rw [none] at unparsed
          cases unparsed
    · rename_i pending
      rw [if_neg pending]
      split at complete
      · rcases complete with status | status <;> cases status
      · dsimp only
        split at complete
        · rcases complete with status | status <;> cases status
        · rename_i publicBaseURL _ _ path located
          obtain ⟨data, read, objects⟩ := pipelineStore_complete complete
          refine ⟨data, read, chat, message, ?_⟩
          simp only [objects, fileName]

/-- One attempt, when both of its objects are filed. -/
def Filed.ofRun (limits : RawLimits) (ingest : ExternalIngest) (attempt : Attempt) (evt : ExternalEvent) (receivedAt : Time) :
    Option (Filed ingest) :=
  match accepted : ingestDoc limits ingest attempt evt receivedAt with
  | .ok (doc, objects) =>
    if complete : doc.media.Complete then some ⟨limits, attempt, evt, receivedAt, doc, objects, accepted, complete⟩ else none
  | .error _ => none

theorem Filed.ofRun_spec {limits : RawLimits} {ingest : ExternalIngest} {attempt : Attempt} {evt : ExternalEvent}
    {receivedAt : Time} {filed : Filed ingest} (run : Filed.ofRun limits ingest attempt evt receivedAt = some filed) :
    filed.attempt = attempt ∧ filed.evt = evt ∧ filed.receivedAt = receivedAt := by
  unfold Filed.ofRun at run
  split at run
  · split at run
    · obtain rfl := Option.some.inj run
      exact ⟨rfl, rfl, rfl⟩
    · cases run
  · cases run

end

/-- An image of a chat. -/
def imageOf (chatId : String) : ExternalEvent := {
  messageId := "3EB0", chatId, senderId := "1@s.whatsapp.net", hasMedia := true, mediaType := "image"
  mediaUrls := some ["/opt/data/a.gif"] }

end GroupButler.Ingest
