import GroupButler.Actions.Execute
import GroupButler.Foundation.Uri
import GroupButler.Replies.Model

/-!
# The keys of sends

The send index is on organization and key alone. Every part of a reply job's key is percent-encoded, so the
separator stands between the parts and nowhere else.
-/

namespace GroupButler.Replies
open Foundation Sends

/-- The parts of a reply job's key. -/
def keyParts (scope : AgentReplyScope) : List String := ["owner-mention", scope.instanceId, scope.groupJid, scope.waMessageId]

theorem keyParts_ne_nil (scope : AgentReplyScope) : keyParts scope ≠ [] := List.cons_ne_nil _ _

theorem toList_replyKey (scope : AgentReplyScope) :
    (agentReplyIdempotencyKey scope).toList = [':'].intercalate ((keyParts scope).map fun part => encodeChars part.toList) := by
  have parts : (keyParts scope).map (String.toList ∘ encodeURIComponent) = (keyParts scope).map fun part => encodeChars part.toList :=
    List.map_congr_left fun part _ => toList_encodeURIComponent part
  rw [agentReplyIdempotencyKey, String.toList_intercalate, List.map_map]
  exact congrArg (List.intercalate [':']) parts

theorem split_replyKey (scope : AgentReplyScope) :
    (agentReplyIdempotencyKey scope).toList.splitOn ':' = (keyParts scope).map fun part => encodeChars part.toList := by
  rw [toList_replyKey]
  apply List.splitOn_intercalate
  · intro part member
    obtain ⟨text, -, rfl⟩ := List.mem_map.mp member
    exact not_mem_encodeChars (by decide) (by decide) _
  · rw [ne_eq, List.map_eq_nil_iff]
    exact keyParts_ne_nil scope

theorem keyParts_of_key {first second : AgentReplyScope}
    (same : agentReplyIdempotencyKey first = agentReplyIdempotencyKey second) : keyParts first = keyParts second := by
  have parts := congrArg (fun key => key.toList.splitOn ':') same
  rw [split_replyKey, split_replyKey] at parts
  refine List.map_injective_iff.mpr (fun s t chars => ?_) parts
  exact String.toList_injective (encodeChars_injective chars)

theorem replyKey_front (scope : AgentReplyScope) : ∃ rest, (agentReplyIdempotencyKey scope).toList = "owner-mention:".toList ++ rest := by
  have plain : encodeChars "owner-mention".toList = "owner-mention".toList := by decide
  refine ⟨[':'].intercalate ([scope.instanceId, scope.groupJid, scope.waMessageId].map fun part => encodeChars part.toList), ?_⟩
  rw [toList_replyKey, keyParts, List.map_cons, plain, intercalate_cons _ (by simp)]
  rfl

theorem replyKey_ne_sendKey (scope : AgentReplyScope) (action : Actions.ActionRow) :
    agentReplyIdempotencyKey scope ≠ Actions.sendKey action := by
  intro same
  obtain ⟨rest, front⟩ := replyKey_front scope
  rw [same, Actions.sendKey, String.toList_append] at front
  exact absurd (List.cons.inj front).1 (by decide)

/-- Two reply jobs share a key just when they answer the same message of the same chat and instance, and no reply
job has the key of a staged action. -/
theorem agentReplyIdempotencyKey_separate (first second : AgentReplyScope) (action : Actions.ActionRow) :
    (agentReplyIdempotencyKey first = agentReplyIdempotencyKey second ↔
        first.instanceId = second.instanceId ∧ first.groupJid = second.groupJid ∧ first.waMessageId = second.waMessageId) ∧
      agentReplyIdempotencyKey first ≠ Actions.sendKey action := by
  refine ⟨⟨fun same => ?_, ?_⟩, replyKey_ne_sendKey first action⟩
  · have parts := keyParts_of_key same
    simp only [keyParts, List.cons.injEq, and_true, true_and] at parts
    exact parts
  · rintro ⟨sameInstance, sameChat, sameMessage⟩
    rw [agentReplyIdempotencyKey, agentReplyIdempotencyKey, sameInstance, sameChat, sameMessage]

end GroupButler.Replies
