import Deposit.Proofs.ErrorDocument
import Deposit.Repository.MemberNode

/-!
Refusals of a member node come through in its own words: whatever name and description the node
gives in its error document, and however it lays the document out, they are what the upload fails
with (`refusal_reasons`).
-/

namespace Deposit

open Xml

/-- A document with a description as the text of an element. -/
def ErrorDocument.Document.describing (d : ErrorDocument.Document) (lead : Blanks)
    (tag : WrittenTag) (gap : Blanks) (description : String) : ErrorDocument.Document :=
  { d with
    description := some ⟨lead, tag,
      some ⟨escape description.toList, fun c mem => (escape_plain description.toList c mem).1,
        gap⟩⟩ }

/-- A text that begins below 0x80 comes through in an answer. -/
theorem Http.Received.text_ok {received : Http.Received} {body : String}
    (low : ∀ c ∈ body.toList.head?, c.toNat < 0x80)
    (sent : received.response.body = Utf8.bytes body)
    (complete : received.response.complete = true) : received.text = .ok body := by
  have unmarked := Utf8.behind?_mark low
  rw [← Utf8.bytes] at unmarked
  rw [Http.Received.text, Http.Received.body, complete, if_pos rfl, sent]
  simp only [Except.map, unmarked, Option.getD_none]
  rw [Utf8.bytes, Utf8.decodeLossy_encode, String.ofList_toList]

namespace ErrorDocument

theorem parse_describing (d : Document) (lead : Blanks) (tag : WrittenTag) (gap : Blanks)
    (description : String) :
    parse (d.describing lead tag gap description).body = some (d.name, trimmed description) := by
  have said : said? (escape description.toList) = some (trimmed description) := by
    rw [said?, escape, Blank.trimBy_flatMap isBlankChar_escapeChar escapeChar_ne_nil, ← escape,
      unescape_escape]
    rfl
  rw [parse_body, Document.reported?, Document.describing]
  simp only [said, Option.map_some]

end ErrorDocument

namespace MemberNode

open Http (Transport Request Received)

/-- The headers of an object's request. -/
def objectHeaders (node : MemberNode) : List Http.Header :=
  [node.agentHeader, ⟨"authorization", "Bearer " ++ node.token⟩]

/-- **Refusals come through.** From the document of an error with any name, attributes, layout and
other children, whose description is the escaped text of an element, the name is read, and the
description without the blanks around it. An upload that is answered without success and with such
a document fails with the identifier and the status code, and in these words. -/
theorem refusal_reasons (d : ErrorDocument.Document) (lead : Blanks) (tag : WrittenTag)
    (gap : Blanks) (description : String) :
    ErrorDocument.parse (d.describing lead tag gap description).body =
        some (d.name, trimmed description) ∧
      ∀ (node : MemberNode) (transport : Transport) (pid : Pid) (content : Bytes)
        (metadata : SystemMetadata) (request : Request) (status : Nat),
        Http.request .post (node.url "object") node.objectHeaders
          (form pid content metadata) = .ok request →
        transport request =
          some ⟨status, Utf8.bytes (d.describing lead tag gap description).body, true⟩ →
        Http.isSuccess status = false →
        node.create transport pid content metadata =
          .error (.rejected pid status d.name (trimmed description)) := by
  have read := ErrorDocument.parse_describing d lead tag gap description
  refine ⟨read, ?_⟩
  intro node transport pid content metadata request status made answered failed
  generalize d.describing lead tag gap description = document at read answered
  have exchanged : Http.exchange transport .post (node.url "object") node.objectHeaders
      (form pid content metadata) =
        .ok ⟨request.url, status, Utf8.bytes document.body, true⟩ := by
    rw [Http.exchange, made]
    simp [Except.bind, Http.send, answered]
  have low : ∀ c ∈ document.body.toList.head?, c.toNat < 0x80 := by
    rw [ErrorDocument.Document.body, String.toList_ofList]
    exact document.head_text
  have text : Received.text ⟨request.url, status, Utf8.bytes document.body, true⟩ =
      .ok document.body := Received.text_ok low rfl rfl
  rw [objectHeaders] at exchanged
  rw [create, exchanged]
  simp only [Received.status, failed, Bool.false_eq_true, if_false, refusal, text, read]

/-- A space. -/
def space : Blanks := ⟨[' '], space_blank⟩

/-- The refusal of an identifier that is taken: the name of the error stands behind a code, and a
trace behind the place of the description. -/
def taken : ErrorDocument.Document where
  declaration := none
  lead := .none
  root := ⟨[⟨space, by decide, "errorCode", by decide, .none, .none, .single, "409"⟩,
    ⟨space, by decide, "name", by decide, .none, space, .double, "IdentifierNotUnique"⟩], space⟩
  name := "IdentifierNotUnique"
  named := ⟨_, List.mem_cons_of_mem _ List.mem_cons_self, rfl, rfl⟩
  before := []
  description := none
  behind := [⟨"trace", by decide, by decide, ⟨space, ⟨[], .none⟩,
    some ⟨['?'], List.forall_mem_singleton.mpr (by decide), .none⟩⟩⟩]
  tail := .none
  gap := .none
  trail := .none

/-- A node that answers so refuses an object in these words. -/
theorem refusal_of_taken :
    let node : MemberNode := ⟨"https://mn.example.org/v2", "token", "agent"⟩
    let body := (taken.describing .none ⟨[], .none⟩ .none " <a&b> is taken\n").body
    let transport : Transport := fun _ => some ⟨409, Utf8.bytes body, true⟩
    let metadata := SystemMetadata.ofContent [] ⟨"a&b"⟩ "text/csv" "a.csv" "owner" none
    (∃ request, Http.request .post (node.url "object") node.objectHeaders
        (form ⟨"a&b"⟩ [] metadata) = .ok request) ∧
      ErrorDocument.parse body = some ("IdentifierNotUnique", "<a&b> is taken") ∧
      node.create transport ⟨"a&b"⟩ [] metadata =
        .error (.rejected ⟨"a&b"⟩ 409 "IdentifierNotUnique" "<a&b> is taken") := by
  intro node body transport metadata
  have plain : trimmed " <a&b> is taken\n" = "<a&b> is taken" := by decide +kernel
  have can : (Http.request .post (node.url "object") node.objectHeaders
      (form ⟨"a&b"⟩ [] metadata)).isOk = true := by
    decide +kernel
  obtain ⟨read, refused⟩ := refusal_reasons taken .none ⟨[], .none⟩ .none " <a&b> is taken\n"
  rw [plain] at read refused
  cases made : Http.request .post (node.url "object") node.objectHeaders
      (form ⟨"a&b"⟩ [] metadata) with
  | error failure => rw [made] at can; cases can
  | ok request =>
      exact ⟨⟨request, rfl⟩, read, refused node transport _ _ metadata request 409 made rfl rfl⟩

end MemberNode

end Deposit
