import PhysHarness.Commons.Inbox

/-!
Excerpts within the bytes of an item.

An escape makes a character cost up to six bytes, so an excerpt is bounded by the text of the whole
item. The bisection finds the longest prefix that fits; the cuts of a thread's item find the first that
does. Neither runs out of prefixes while the rest of the item is short.
-/
namespace PhysHarness
namespace Inbox

open Outcome Clipping

/-! ### The longest prefix -/

/-- The longest prefix of a text that passes. -/
structure Longest (passes : Text → Prop) (text excerpt : Text) : Prop where
  start : excerpt <+: text
  fits : passes excerpt
  longest : ∀ longer, longer <+: text → excerpt.length < longer.length → ¬ passes longer

/-- An excerpt within its own bytes, whose item is within the item's. -/
def Fits {ι : Type} (json : ι → Json) (candidate : Text → Bool → ι) (content excerpt : Text) : Prop :=
  Json.bytes excerpt ≤ excerptBytes ∧
    (json (candidate excerpt (excerpt ≠ content))).size ≤ itemBytes

/-- The size of an item by its excerpt and its flag. -/
def Shaped {ι : Type} (json : ι → Json) (candidate : Text → Bool → ι) (overhead : Nat) : Prop :=
  ∀ excerpt truncated, (json (candidate excerpt truncated)).size =
    overhead + Json.escapedBytes excerpt + if truncated then 4 else 5

theorem size_mono {ι : Type} {json : ι → Json} {candidate : Text → Bool → ι} {overhead : Nat}
    (shaped : Shaped json candidate overhead) {part text : Text} (within : part <+: text)
    (truncated : Bool) :
    (json (candidate part truncated)).size ≤ (json (candidate text truncated)).size := by
  have less := Json.escapedBytes_mono within
  rw [shaped, shaped]
  omega

theorem take_ne {text content : Text} (within : text <+: content) {length : Nat}
    (shorter : length < text.length) : text.take length ≠ content := by
  intro same
  have long := within.length_le
  have short : (text.take length).length = length := List.length_take_of_le shorter.le
  rw [same] at short
  omega

/-- A short item is cut to the longest excerpt that fits. -/
theorem boundedExcerpt_longest {ι : Type} {json : ι → Json} {candidate : Text → Bool → ι}
    {overhead : Nat} (shaped : Shaped json candidate overhead) (short : overhead + 5 ≤ itemBytes)
    (content : Text) : ∃ excerpt,
      boundedExcerpt json candidate content = .ok (candidate excerpt (excerpt ≠ content)) ∧
        Longest (Fits json candidate content) content excerpt := by
  have within : clip Char.utf8Size excerptBytes content <+: content := clip_begins _ _
  have raw : Json.bytes (clip Char.utf8Size excerptBytes content) ≤ excerptBytes := cost_clip_le _ _
  have covers : ∀ longer, longer <+: content → Json.bytes longer ≤ excerptBytes →
      longer <+: clip Char.utf8Size excerptBytes content := fun longer start fits =>
    begins_clip start fits
  unfold boundedExcerpt
  generalize clip Char.utf8Size excerptBytes content = text at within raw covers
  -- the test of the loop, on the excerpt itself
  let passes (part : Text) : Bool := (json (candidate part (part ≠ content))).size ≤ itemBytes
  let made (part : Text) : ι := candidate part (part ≠ content)
  let refused := Failure.refuse "DELIVERY_BOUNDS" "Delivery metadata exceeds its byte bound."
  change ∃ excerpt, (if passes (text.take text.length) then Except.ok (made (text.take text.length))
    else
      let low := bisect (fun length => passes (text.take length)) 0 (text.length - 1)
      if passes (text.take low) then Except.ok (made (text.take low)) else Except.error refused) =
        Except.ok (made excerpt) ∧ Longest (Fits json candidate content) content excerpt
  have bytes : ∀ length, Json.bytes (text.take length) ≤ excerptBytes := fun length =>
    (cost_mono (List.take_prefix length text)).trans raw
  split
  next fits =>
    -- the whole of the text that is within the bytes
    refine ⟨_, rfl, (List.take_prefix _ _).trans within, ⟨bytes _, of_decide_eq_true fits⟩, ?_⟩
    intro longer start more fits
    have inside := (covers longer start fits.1).length_le
    rw [List.length_take] at more
    omega
  next beyond =>
    rw [List.take_length] at beyond
    have falling : ∀ m n, m ≤ n → n ≤ text.length - 1 → passes (text.take n) →
        passes (text.take m) := by
      intro m n le inside fits
      by_cases empty : text.length = 0
      · rwa [show m = n by omega]
      · -- below the whole text every excerpt is marked
        have first := take_ne within (show m < text.length by omega)
        have second := take_ne within (show n < text.length by omega)
        have less := size_mono shaped (show text.take m <+: text.take n from List.take_prefix_take_left le) true
        simp only [passes, decide_eq_true_iff, ne_eq, first, second, not_false_eq_true,
          decide_true] at fits ⊢
        exact less.trans fits
    have found : Last (fun length => passes (text.take length)) 0 (text.length - 1) _ :=
      bisect_last falling (Nat.zero_le _)
    have least : passes (text.take 0) := by
      simp only [passes, decide_eq_true_iff]
      rw [shaped, List.take_zero, Json.escapedBytes_nil]
      split <;> omega
    have last := found.passes least
    dsimp only
    rw [if_pos last]
    refine ⟨_, rfl, (List.take_prefix _ _).trans within, ⟨bytes _, of_decide_eq_true last⟩, ?_⟩
    intro longer start more fits
    have inside := covers longer start fits.1
    have taken : text.take longer.length = longer := (List.prefix_iff_eq_take.mp inside).symm
    rw [List.length_take] at more
    by_cases whole : longer.length = text.length
    · rw [← taken, whole, List.take_length] at fits
      exact beyond (decide_eq_true fits.2)
    · have le := inside.length_le
      have upper := found.upper
      have none := found.later longer.length (by omega) (by omega)
      rw [taken] at none
      exact of_decide_eq_false none fits.2

/-! ### The cuts of a thread's item -/

/-- The bytes that are left after some cuts. -/
def quarters (raw cuts : Nat) : Nat := (fun raw => raw * 3 / 4)^[cuts] raw

/-- The first of the cuts whose item fits. -/
structure FirstCut (item : PostItem) (text : Text) (more : Bool) (raw cuts : Nat) : Prop where
  fits : (item.cut text more (quarters raw cuts)).json.size ≤ itemBytes
  first : ∀ fewer < cuts, ¬ (item.cut text more (quarters raw fewer)).json.size ≤ itemBytes

theorem shrinkExcerpt_first {item : PostItem} {text : Text} {more : Bool}
    (short : (item.cut text more 0).json.size ≤ itemBytes) (raw : Nat) :
    ∃ cuts, shrinkExcerpt item text more raw = .ok (item.cut text more (quarters raw cuts)) ∧
      FirstCut item text more raw cuts := by
  -- the induction is over the cuts of the loop
  fun_induction shrinkExcerpt item text more raw with
  | case1 raw candidate fits =>
    exact ⟨0, rfl, fits, fun _ fewer => absurd fewer (Nat.not_lt_zero _)⟩
  | case2 candidate beyond => exact absurd short beyond
  | case3 raw candidate beyond some_left ih =>
    obtain ⟨cuts, done, fits, first⟩ := ih
    refine ⟨cuts + 1, done, fits, fun fewer less => ?_⟩
    cases fewer with
    | zero => exact beyond
    | succ fewer => exact first fewer (by omega)

/-! ### The rest of an item -/

/-- What an item takes beside its excerpt and its flag. -/
def PostItem.overhead (item : PostItem) : Nat :=
  { item with excerpt := [], truncated := true }.json.size - 4

def MessageItem.overhead (item : MessageItem) : Nat :=
  { item with excerpt := [], truncated := true }.json.size - 4

theorem PostItem.size_json (item : PostItem) : item.json.size =
    item.overhead + Json.escapedBytes item.excerpt + if item.truncated then 4 else 5 := by
  obtain ⟨id, topicId, sequence, kind, attributedTo, branchId, excerpt, truncated, thread⟩ := item
  cases thread <;> cases truncated <;>
    simp only [overhead, json, fields, ThreadPart.fields, List.cons_append, List.nil_append,
      List.append_nil, Json.size_obj, Json.fieldBytes, List.map_cons, List.map_nil, List.sum_cons,
      List.sum_nil, Json.size_str, Json.size_bool, String.toList_ofList, Json.escapedBytes_nil,
      if_true, if_false, Bool.false_eq_true] <;>
    omega

theorem MessageItem.size_json (item : MessageItem) : item.json.size =
    item.overhead + Json.escapedBytes item.excerpt + if item.truncated then 4 else 5 := by
  obtain ⟨id, sequence, attributedTo, senderBranchId, recipientBranchId, excerpt, truncated⟩ := item
  cases truncated <;>
    simp only [overhead, json, fields, Json.size_obj, Json.fieldBytes, List.map_cons, List.map_nil,
      List.sum_cons, List.sum_nil, Json.size_str, Json.size_bool, String.toList_ofList,
      Json.escapedBytes_nil, if_true, if_false, Bool.false_eq_true] <;>
    omega

/-! ### Short attribution -/

def identifierBytes : Nat := 64
def authorBytes : Nat := 200
def sequenceDigits : Nat := 20

/-- A text of few bytes in JSON, escapes included. -/
def Short (limit : Nat) (text : String) : Prop := Json.escapedBytes text.toList ≤ limit

/-- The identifiers, the author and the sequence of a post are short. -/
structure Post.ShortAttribution (id : Id) (post : Post) : Prop where
  id : Short identifierBytes id
  topicId : Short identifierBytes post.topicId
  attributedTo : Short authorBytes post.attributedTo
  branchId : ∀ branchId ∈ post.branchId, Short identifierBytes branchId
  sequence : post.sequence < 10 ^ sequenceDigits

structure AddressedMessage.ShortAttribution (id : Id) (message : AddressedMessage) : Prop where
  id : Short identifierBytes id
  attributedTo : Short authorBytes message.attributedTo
  senderBranchId : Short identifierBytes message.senderBranchId
  recipientBranchId : Short identifierBytes message.recipientBranchId

theorem size_ofOption {limit : Nat} {text? : Option String}
    (short : ∀ text ∈ text?, Short limit text) : (Json.ofOption text?).size ≤ limit + 4 := by
  cases text? with
  | none => simp [Json.ofOption]
  | some text =>
    have bound : Json.escapedBytes text.toList ≤ limit := short text rfl
    simp only [Json.ofOption, Json.size_str]
    omega

theorem kind_bytes (kind : PostKind) : Json.escapedBytes kind.text.toList ≤ 14 := by
  cases kind <;> decide

theorem key_bytes : Json.bytes (Json.quoted "id") = 4 ∧ Json.bytes (Json.quoted "topic_id") = 10 ∧
    Json.bytes (Json.quoted "sequence") = 10 ∧ Json.bytes (Json.quoted "post_kind") = 11 ∧
    Json.bytes (Json.quoted "attributed_to") = 15 ∧ Json.bytes (Json.quoted "branch_id") = 11 ∧
    Json.bytes (Json.quoted "recipient_branch_id") = 21 ∧ Json.bytes (Json.quoted "excerpt") = 9 ∧
    Json.bytes (Json.quoted "truncated") = 11 ∧ Json.bytes (Json.quoted "retrieval_post_id") = 19 ∧
    Json.bytes (Json.quoted "retrieval_id") = 14 ∧ Json.bytes (Json.quoted "source_kind") = 13 ∧
    Json.bytes (Json.quoted "evidence_status") = 17 ∧ Json.bytes (Json.quoted "node_id") = 9 ∧
    Json.bytes (Json.quoted "node_title") = 12 ∧ Json.bytes (Json.quoted "urgent") = 8 := by
  decide

theorem value_bytes : Json.escapedBytes "discussion_post".toList = 15 ∧
    Json.escapedBytes "unverified_discussion".toList = 21 ∧ Json.escapedBytes "message".toList = 7 ∧
    Json.escapedBytes "attributed_idea".toList = 15 := by
  decide

theorem Post.overhead_le {id : Id} {post : Post} (short : post.ShortAttribution id)
    (excerpt : Text) (truncated : Bool) : (post.item id excerpt truncated).overhead ≤ 900 := by
  have one : Json.escapedBytes id.toList ≤ 64 := short.id
  have topic : Json.escapedBytes post.topicId.toList ≤ 64 := short.topicId
  have author : Json.escapedBytes post.attributedTo.toList ≤ 200 := short.attributedTo
  have branch := size_ofOption short.branchId
  have number := Json.size_int_le (by decide) short.sequence
  have kind := kind_bytes post.kind
  obtain ⟨k1, k2, k3, k4, k5, k6, -, k8, k9, k10, k11, k12, k13, -⟩ := key_bytes
  obtain ⟨v1, v2, -⟩ := value_bytes
  simp only [PostItem.overhead, Post.item, PostItem.json, PostItem.fields, List.append_nil,
    Json.size_obj, Json.fieldBytes, List.map_cons, List.map_nil, List.sum_cons, List.sum_nil,
    Json.size_str, Json.size_bool, String.toList_ofList, Json.escapedBytes_nil, if_true, k1, k2, k3,
    k4, k5, k6, k8, k9, k10, k11, k12, k13, v1, v2]
  simp only [identifierBytes, sequenceDigits] at *
  omega

theorem AddressedMessage.overhead_le {id : Id} {message : AddressedMessage} {sequence : Nat}
    (short : message.ShortAttribution id) (small : sequence < 10 ^ sequenceDigits) (excerpt : Text)
    (truncated : Bool) : (message.item id sequence excerpt truncated).overhead ≤ 900 := by
  have one : Json.escapedBytes id.toList ≤ 64 := short.id
  have author : Json.escapedBytes message.attributedTo.toList ≤ 200 := short.attributedTo
  have sender : Json.escapedBytes message.senderBranchId.toList ≤ 64 := short.senderBranchId
  have recipient : Json.escapedBytes message.recipientBranchId.toList ≤ 64 :=
    short.recipientBranchId
  have number := Json.size_int_le (by decide) small
  obtain ⟨k1, -, k3, -, k5, k6, k7, k8, k9, -, k11, k12, k13, -⟩ := key_bytes
  obtain ⟨-, -, v3, v4⟩ := value_bytes
  simp only [MessageItem.overhead, AddressedMessage.item, MessageItem.json, MessageItem.fields,
    Json.size_obj, Json.fieldBytes, List.map_cons, List.map_nil, List.sum_cons, List.sum_nil,
    Json.size_str, Json.size_bool, String.toList_ofList, Json.escapedBytes_nil, if_true, k1, k3, k5,
    k6, k7, k8, k9, k11, k12, k13, v3, v4]
  simp only [sequenceDigits] at *
  omega

/-- A title of eighty characters takes at most six bytes for each. -/
theorem overhead_thread {item : PostItem} (plain : item.thread = none) {thread : ThreadPart}
    (short : Short identifierBytes thread.nodeId) (title : thread.title.length ≤ titleChars) :
    { item with thread := some thread }.overhead ≤ item.overhead + 600 := by
  obtain ⟨id, topicId, sequence, kind, attributedTo, branchId, excerpt, truncated, thread?⟩ := item
  obtain rfl : thread? = none := plain
  have node : Json.escapedBytes thread.nodeId.toList ≤ 64 := short
  have wide := Json.escapedBytes_le thread.title
  have cut : thread.title.length ≤ 80 := title
  obtain ⟨-, -, -, -, -, -, -, -, -, -, -, -, -, k14, k15, k16⟩ := key_bytes
  have flag : (if thread.urgent = true then 4 else 5) ≤ 5 := by split <;> decide
  simp only [PostItem.overhead, PostItem.json, PostItem.fields, ThreadPart.fields, List.cons_append,
    List.nil_append, List.append_nil, Json.size_obj, Json.fieldBytes, List.map_cons, List.map_nil,
    List.sum_cons, List.sum_nil, Json.size_str, Json.size_bool, String.toList_ofList, k14, k15, k16]
  omega

/-! ### Excerpts of short items -/

theorem Post.shaped (id : Id) (post : Post) :
    Shaped PostItem.json (post.item id) (post.item id [] true).overhead := fun _ _ =>
  PostItem.size_json _

theorem AddressedMessage.shaped (id : Id) (sequence : Nat) (message : AddressedMessage) :
    Shaped MessageItem.json (message.item id sequence)
      (message.item id sequence [] true).overhead := fun _ _ =>
  MessageItem.size_json _

theorem discussionExcerpt_longest {id : Id} {post : Post} (short : post.ShortAttribution id) :
    ∃ excerpt, discussionExcerpt id post = .ok (post.item id excerpt (excerpt ≠ post.content)) ∧
      Longest (Fits PostItem.json (post.item id) post.content) post.content excerpt := by
  have small := Post.overhead_le short [] true
  exact boundedExcerpt_longest (Post.shaped id post) (by simp only [itemBytes]; omega) post.content

theorem researchMessageExcerpt_longest {id : Id} {message : AddressedMessage} {sequence : Nat}
    (short : message.ShortAttribution id) (low : sequence < 10 ^ sequenceDigits) :
    ∃ excerpt, researchMessageExcerpt id message sequence =
        .ok (message.item id sequence excerpt (excerpt ≠ message.content)) ∧
      Longest (Fits MessageItem.json (message.item id sequence) message.content) message.content
        excerpt := by
  have small := AddressedMessage.overhead_le short low [] true
  exact boundedExcerpt_longest (AddressedMessage.shaped id sequence message)
    (by simp only [itemBytes]; omega) message.content

/-- The item of a thread before its excerpt. -/
def Post.threadItem (post : Post) (id : Id) (thread : ThreadPart) : PostItem :=
  { post.item id [] false with thread := some thread }

theorem nodeThreadItem_first [ContentHash] {board : Board} {now : Time} {id nodeId : Id} {post : Post}
    {actor : Principal} {node : Row ThreadNode} (short : post.ShortAttribution id)
    (named : Short identifierBytes nodeId) (found : board.nodes.find nodeId = some node) :
    ∃ thread cuts, thread.nodeId = nodeId ∧
      thread.urgent = board.postUrgent now post nodeId actor ∧
      nodeThreadItem board now id post nodeId actor =
        .ok ((post.threadItem id thread).cut post.shown post.more
          (quarters (min excerptBytes (Json.bytes post.shown)) cuts)) ∧
      FirstCut (post.threadItem id thread) post.shown post.more
        (min excerptBytes (Json.bytes post.shown)) cuts := by
  have empty : ({ post with content := [] } : Post).ShortAttribution id :=
    ⟨short.id, short.topicId, short.attributedTo, short.branchId, short.sequence⟩
  obtain ⟨excerpt, made, longest⟩ := discussionExcerpt_longest empty
  obtain rfl : excerpt = [] := List.prefix_nil.mp longest.start
  let thread : ThreadPart :=
    { nodeId, title := node.payload.title.take titleChars
      urgent := board.postUrgent now post nodeId actor }
  have title : thread.title.length ≤ titleChars := List.length_take_le _ _
  have plain := Post.overhead_le short [] false
  have whole : (post.threadItem id thread).overhead ≤ (post.item id [] false).overhead + 600 :=
    overhead_thread rfl named title
  have least : ((post.threadItem id thread).cut post.shown post.more 0).json.size ≤ itemBytes := by
    have nothing : clip Char.utf8Size 0 post.shown = [] := clip_zero Char.utf8Size_pos _
    have size := PostItem.size_json ((post.threadItem id thread).cut post.shown post.more 0)
    have same : ((post.threadItem id thread).cut post.shown post.more 0).overhead =
        (post.threadItem id thread).overhead := rfl
    have blank : ((post.threadItem id thread).cut post.shown post.more 0).excerpt = [] := nothing
    rw [blank, Json.escapedBytes_nil, same] at size
    have flag : (if ((post.threadItem id thread).cut post.shown post.more 0).truncated = true
        then 4 else 5) ≤ 5 := by
      split <;> decide
    simp only [itemBytes]
    omega
  obtain ⟨cuts, done, first⟩ := shrinkExcerpt_first least (min excerptBytes (Json.bytes post.shown))
  refine ⟨thread, cuts, rfl, rfl, ?_, first⟩
  rw [nodeThreadItem, made, ← done]
  rw [found]
  rfl

end Inbox
end PhysHarness
