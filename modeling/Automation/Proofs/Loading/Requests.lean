import Automation.Proofs.Compiler.Decoding
import Automation.Proofs.Json.Compact
import Automation.Proofs.Lines
import Automation.Proofs.Loading.Conversation

/-
Requests on the wire.

A process is sent octets, and it finds the requests in them by their line feeds.  Every line feed in
what is given with a request is escaped, so the only one in its line is the last octet; the line before
it is read back as the operation and what is given with it.  The lines of a conversation can therefore be
taken apart again in one way only.
-/

namespace Automation

namespace Text

/-- The octets of some text. -/
def octets (s : String) : List UInt8 := s.toUTF8.data.toList

theorem octets_append (s t : String) : octets (s ++ t) = octets s ++ octets t := by
  simp [octets, String.toUTF8, ByteArray.data_append]

theorem octets_injective : Function.Injective octets := by
  intro s t h
  rw [octets, octets, Array.toList_inj, ← ByteArray.ext_iff] at h
  exact String.toByteArray_inj.mp h

theorem octets_ofList (cs : List Char) :
    octets (String.ofList cs) = cs.flatMap String.utf8EncodeChar := by
  simp [octets, String.toUTF8, String.toByteArray_ofList, List.utf8Encode]

/-- A character of several octets has none of the first 128, so a line feed stands for itself only. -/
theorem lineFeed_mem_utf8EncodeChar {c : Char} :
    lineFeed ∈ String.utf8EncodeChar c ↔ c = '\n' := by
  constructor
  · intro h
    have hten : UInt8.toNat 10 = 10 := rfl
    have hnewline : '\n'.val.toNat = 10 := rfl
    apply Char.ext
    apply UInt32.toNat_inj.mp
    simp only [String.utf8EncodeChar, lineFeed] at h
    split_ifs at h
    all_goals
      simp only [List.mem_cons, List.not_mem_nil, or_false, ← UInt8.toNat_inj,
        UInt8.toNat_ofNat'] at h
      omega
  · rintro rfl
    decide

theorem lineFeed_mem_octets {s : String} : lineFeed ∈ octets s ↔ '\n' ∈ s.toList := by
  rw [← String.ofList_toList (s := s), octets_ofList, String.toList_ofList, List.mem_flatMap]
  simp [lineFeed_mem_utf8EncodeChar]

end Text

open Text (octets lineFeed)

namespace Request

/-- The word for what is asked. -/
def operation : Request → String
  | bind => "bind"
  | setHost _ _ => "set_host"
  | setup => "setup"
  | run _ => "run"
  | reset => "reset"

/-- What is given with a request, each text with its name. -/
def parameters : Request → List (String × String)
  | setHost host address => [("host", host), ("address", address)]
  | run options => [("options", options)]
  | _ => []

/-- The object that says what is asked: the operation, and what is given with it. -/
def object (request : Request) : Document :=
  .object ((some "op", .text (some request.operation)) ::
    request.parameters.map fun (name, value) => (some name, .text (some value)))

/-- The octets of some requests, one after the other. -/
def wire (requests : List Request) : List UInt8 := requests.flatMap fun request => octets request.line

/-- A request is its operation and what is given with it. -/
theorem object_injective : Function.Injective object := by
  intro first second h
  obtain ⟨hoperation, hparameters⟩ := List.cons.inj (Document.object.inj h)
  have hword : first.operation = second.operation := by simpa using hoperation
  cases first with
  | bind => cases second <;> simp_all [operation]
  | setup => cases second <;> simp_all [operation]
  | reset => cases second <;> simp_all [operation]
  | setHost host address =>
      cases second with
      | setHost host' address' => simpa [parameters] using hparameters
      | _ => simp [operation] at hword
  | run options =>
      cases second with
      | run options' => simpa [parameters] using hparameters
      | _ => simp [operation] at hword

theorem toDocument_toJson (request : Request) : request.toJson.toDocument = request.object := by
  cases request <;> rfl

theorem isExact_toJson (request : Request) : request.toJson.IsExact := by
  cases request <;> exact .object (by simp [Json.IsExact.text])

theorem parse?_compact (request : Request) :
    Document.parse? request.toJson.compact = some request.object := by
  rw [request.isExact_toJson.parse?_compact, request.toDocument_toJson]

theorem lineFeed_notMem_compact (request : Request) :
    lineFeed ∉ octets request.toJson.compact := by
  rw [Text.lineFeed_mem_octets, Json.compact, String.toList_ofList]
  exact Json.lineFeed_notMem_render request.toJson

theorem octets_line (request : Request) :
    octets request.line = octets request.toJson.compact ++ [lineFeed] := by
  rw [line, Text.octets_append]
  rfl

/-- The line feeds of some requests are the ends of their lines. -/
theorem splitAt_wire (requests : List Request) :
    Text.splitAt lineFeed (wire requests) =
      (requests.map fun request => octets request.toJson.compact) ++ [[]] := by
  induction requests with
  | nil => rfl
  | cons request rest ih =>
      rw [wire, List.flatMap_cons, octets_line, List.append_assoc, List.singleton_append,
        Text.splitAt_append_cons, Text.splitAt_of_notMem _ request.lineFeed_notMem_compact]
      exact congrArg (octets request.toJson.compact :: ·) ih

theorem compact_injective : Function.Injective fun request : Request => request.toJson.compact := by
  intro first second h
  have hread := congrArg Document.parse? h
  rw [parse?_compact, parse?_compact] at hread
  exact object_injective (Option.some.inj hread)

/-- What is on the wire says which requests it is. -/
theorem wire_injective : Function.Injective wire := by
  intro first second h
  have hsplit := congrArg (Text.splitAt lineFeed) h
  rw [splitAt_wire, splitAt_wire] at hsplit
  have hlines := List.append_cancel_right hsplit
  exact (Text.octets_injective.comp compact_injective).list_map hlines

end Request

namespace IsolatedEntry

variable {τ : Type} {launcher : Launcher τ} {record : τ → List Dispatch}

/-- What reaches a process when it is sent a request is the line of the request. -/
theorem record_exchange (h : launcher.Records record) (process : Nat) (request : Request)
    (w : World τ) : record ((exchange launcher process request).run w).2.outside =
      record w.outside ++ [.line process request.line] :=
  Overheard.recorded_exchanging h process request w

/-- What reaches the process in a conversation are the lines of the first requests, up to the one that
closes the entry. -/
theorem record_converse (h : launcher.Records record) (entry : IsolatedEntry)
    (requests : List Request) (w : World τ) : ∃ asked, asked <+: requests ∧
      record ((entry.converse launcher requests).run w).2.outside =
        record w.outside ++ asked.map fun request => .line entry.process request.line := by
  induction requests generalizing entry w with
  | nil => exact ⟨[], List.prefix_rfl, (List.append_nil _).symm⟩
  | cons request rest ih =>
      cases hbroken : entry.broken with
      | true =>
          refine ⟨[], List.nil_prefix, ?_⟩
          rw [run_converse_of_broken hbroken]
          exact (List.append_nil _).symm
      | false =>
          rw [run_converse_cons, run_call_of_sound hbroken]
          obtain ⟨asked, hasked, hrecord⟩ := ih
            { entry with broken := !((exchange launcher entry.process request).run w).1.isOk }
            ((exchange launcher entry.process request).run w).2
          refine ⟨request :: asked, List.cons_prefix_cons.mpr ⟨rfl, hasked⟩, ?_⟩
          rw [hrecord, record_exchange h, List.append_assoc]
          rfl

end IsolatedEntry

/-- A request is one line that says what is asked.  To ask a process is to write one line to it and
nothing else: the octets of an object, in which there is no line feed, and a line feed.  The object is
read back as the operation of the request and exactly what is given with it, whatever the texts are.  In a
conversation the first requests are written in their order, up to the one that closes the entry, and the
line feeds of all that is written take it apart into the objects of the requests.  So two requests never
have the same line, and what is written stands for one list of requests only. -/
theorem requests_are_single_lines {τ : Type} {launcher : Launcher τ} {record : τ → List Dispatch}
    (h : launcher.Records record) :
    (∀ process (request : Request) (w : World τ), ∃ body : String,
      record ((IsolatedEntry.exchange launcher process request).run w).2.outside =
          record w.outside ++ [.line process (body ++ "\n")] ∧
        octets (body ++ "\n") = octets body ++ [lineFeed] ∧ lineFeed ∉ octets body ∧
        Document.parse? body = some request.object) ∧
      (∀ (entry : IsolatedEntry) requests (w : World τ), ∃ asked, asked <+: requests ∧
        record ((entry.converse launcher requests).run w).2.outside =
          record w.outside ++ asked.map fun request => .line entry.process request.line) ∧
      (∀ requests, Text.splitAt lineFeed (Request.wire requests) =
        (requests.map fun request => octets request.toJson.compact) ++ [[]]) ∧
      Function.Injective Request.line ∧ Function.Injective Request.wire := by
  refine ⟨fun process request w => ?_, IsolatedEntry.record_converse h, Request.splitAt_wire, ?_,
    Request.wire_injective⟩
  · exact ⟨request.toJson.compact, IsolatedEntry.record_exchange h process request w,
      request.octets_line, request.lineFeed_notMem_compact, request.parse?_compact⟩
  · intro first second hline
    have hwire : Request.wire [first] = Request.wire [second] := by
      simp [Request.wire, hline]
    exact (List.cons.inj (Request.wire_injective hwire)).1

section Lamp

/-- A launcher that writes down all that reaches its processes.  They never answer. -/
def Launcher.scribe : Launcher (List Dispatch) where
  start _ := fun w =>
    (.ok w.outside.length, { w with outside := w.outside ++ [.start w.outside.length] })
  send process line := fun w => (.ok (), { w with outside := w.outside ++ [.line process line] })
  receiveLine _ := pure (.ok "")
  waiting _ _ := 0
  stop _ := pure ()

theorem Launcher.records_scribe : Launcher.scribe.Records id :=
  ⟨fun _ _ => rfl, fun _ _ _ => rfl, fun _ _ => rfl, fun _ _ => rfl⟩

/-- Options that would end the request and begin another one, were they not escaped. -/
def slyOptions : String := "\"\x7d\n\x7b\"op\":\"reset\"\x7d"

/-- Nothing has been sent to the lamp. -/
def unheardLamp : World (List Dispatch) := ⟨⟨⟨[], []⟩, ⟨1, []⟩, ⟨0, 0⟩, 0⟩, []⟩

theorem sly_options_are_only_options : Launcher.scribe.Records id ∧
    (∃ body : String,
      ((IsolatedEntry.exchange .scribe 0 (.run slyOptions)).run unheardLamp).2.outside =
        [.line 0 (body ++ "\n")] ∧ lineFeed ∉ octets body ∧
      Document.parse? body = some (.object
        [(some "op", .text (some "run")), (some "options", .text (some slyOptions))])) ∧
    Text.splitAt lineFeed (Request.wire [.run slyOptions, .reset]) =
      [ octets "\x7b\"op\":\"run\",\"options\":\"\\\"\x7d\\n\x7b\\\"op\\\":\\\"reset\\\"\x7d\"\x7d"
      , octets "\x7b\"op\":\"reset\"\x7d", [] ] := by
  obtain ⟨hlines, -, hsplit, -⟩ := requests_are_single_lines Launcher.records_scribe
  obtain ⟨body, hrecord, -, hfeed, hread⟩ := hlines 0 (.run slyOptions) unheardLamp
  refine ⟨Launcher.records_scribe, ⟨body, hrecord, hfeed, hread⟩, ?_⟩
  rw [hsplit]
  decide +kernel

end Lamp

end Automation
