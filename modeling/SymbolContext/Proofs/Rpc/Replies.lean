import SymbolContext.Proofs.Json.Record
import SymbolContext.Proofs.Json.RoundTrip
import SymbolContext.Proofs.Rpc.Line

/-!
# Replies

The requests of the server are answered in the order in which they arrive, each once, and nothing
else is. An answer is a text that the other end, reading as this one does, takes for a response.

* `id_of_requestIn?`: a request is answered by the identifier that stands in its text, which is not
  null and could have been read (`Fits`); so the answer can be read again.
* `renderFields_reply`: the text of a response, character by character.
* `parse?_granted`, `parse?_refused`: what it is read as.
* `receiveAll_outbox`: what a run of inbound texts puts on its way.
-/

namespace SymbolContext.Rpc

open Json (Fits depthLimit reread)

/-- The request that a text holds, if it holds one. -/
def requestIn? (text : String) : Option Request :=
  match Message.parse? text with
  | some (.request r) => some r
  | _ => none

theorem requestIn?_eq_some {text : String} {r : Request} :
    requestIn? text = some r ↔ Message.parse? text = some (.request r) := by
  unfold requestIn?
  split
  · rename_i r' h
    simp [h]
  · rename_i h
    simp only [reduceCtorEq, false_iff]
    exact h r

/-! ## Identifiers -/

theorem reads_id : Request.record.Reads "id" Draft.id Decoder.any := by
  constructor <;> simp [Request.record, Draft.visit, map_eq_ok, Decoder.any]

theorem exists_decoded {text : String} {r : Request} (h : requestIn? text = some r) :
    ∃ v, Json.parse? text = some v ∧ hasId v = true ∧ Request.record.decode v = .ok r := by
  obtain ⟨v, hv, hr⟩ := Option.bind_eq_some_iff.1 (requestIn?_eq_some.1 h)
  refine ⟨v, hv, ?_⟩
  unfold Message.ofJson? at hr
  split at hr
  · rename_i hid
    obtain ⟨r', hr', heq⟩ := Option.map_eq_some_iff.1 hr
    cases heq
    cases hd : Request.record.decode v with
    | error e =>
      rw [hd] at hr'
      cases hr'
    | ok a =>
      rw [hd] at hr'
      cases hr'
      exact ⟨hid, rfl⟩
  · obtain ⟨n, -, heq⟩ := Option.map_eq_some_iff.1 hr
    cases heq
  · obtain ⟨w, -, heq⟩ := Option.map_eq_some_iff.1 hr
    cases heq
  · cases hr

/-- A request is decoded with the identifier that its value holds. -/
theorem value?_id {v : Json} {r : Request} (h : Request.record.decode v = .ok r) :
    Request.record.value? "id" v = some r.id := by
  obtain ⟨d, hd, hr⟩ := Record.exists_draft h
  obtain ⟨-, -, hr⟩ := bind_eq_ok.1 hr
  obtain ⟨id, hid, hr⟩ := bind_eq_ok.1 hr
  obtain ⟨method, -, hr⟩ := bind_eq_ok.1 hr
  cases hr
  obtain ⟨w, hw, hid⟩ := reads_id.value hd hid
  cases hid
  exact hw

/-- **The identifier of a request** stands in its text, is not null, and could have been read. -/
theorem id_of_requestIn? {text : String} {r : Request} (h : requestIn? text = some r) :
    ∃ v, Json.parse? text = some v ∧ v.field? "id" = some r.id ∧ r.id.isNull = false ∧
      Fits (depthLimit - 1) r.id := by
  obtain ⟨v, hv, hid, hr⟩ := exists_decoded h
  have hfits := Json.fits_of_parse? hv
  have hvalue := value?_id hr
  refine ⟨v, hv, ?_⟩
  unfold hasId at hid
  split at hid
  · rename_i id hfield
    cases v with
    | obj fields =>
      obtain ⟨n, hn, hfields, hordered⟩ := hfits.fields
      -- decoding looks from behind, but each name is there once
      have hmem : ("id", r.id) ∈ fields := List.mem_reverse.1 (Json.mem_of_lookup hvalue)
      obtain rfl : id = r.id := hordered.eq_of_mem (Json.mem_of_lookup hfield) hmem
      refine ⟨hfield, by simpa using hid, ?_⟩
      rw [hn]
      exact hfields _ hmem
    | _ => cases hfield
  · cases hid

/-! ## The text of a response -/

/-- A version, an identifier and one more field are written in this order; `mark` is what stands
before the value of that field. -/
theorem renderFields_reply (id v : Json) {name mark : String}
    (hmark : mark.toList = ',' :: (Json.writeText name ++ [':'])) :
    Json.renderFields [versionField, ("id", id), (name, v)] =
      "\x7b\"jsonrpc\":\"2.0\",\"id\":" ++ Json.render id ++ mark ++ Json.render v ++ "\x7d" := by
  have hopen : "\x7b\"jsonrpc\":\"2.0\",\"id\":".toList =
      '\x7b' :: (Json.writeText "jsonrpc" ++ ':' :: Json.write (.str "2.0") ++
        ',' :: (Json.writeText "id" ++ [':'])) := by rfl
  apply String.toList_inj.1
  simp only [String.toList_append, hopen, hmark, Json.render, String.toList_ofList]
  simp [Json.renderFields, Json.writeFields, versionField]

theorem mkObj_id (id : Json) (fields : List (String × Json)) :
    Json.mkObj ([versionField, ("id", id)] ++ fields) =
      .obj (fields.foldl (fun acc f => Json.insert f.1 f.2 acc) [("id", id), versionField]) := by
  have hinsert : Json.insert "id" id [versionField] = [("id", id), versionField] :=
    if_pos (show "id" < "jsonrpc" by decide)
  rw [Json.mkObj, List.foldl_append, ← hinsert, List.foldl_cons, List.foldl_cons, List.foldl_nil]
  rfl

theorem mkObj_granted (id v : Json) : Json.mkObj [versionField, ("id", id), ("result", v)] =
    .obj [("id", id), versionField, ("result", v)] := by
  have hlast : ∀ f ∈ [("id", id), versionField], f.1 < "result" :=
    List.forall_mem_cons.2 ⟨show "id" < "result" by decide,
      List.forall_mem_singleton.2 (show "jsonrpc" < "result" by decide)⟩
  refine (mkObj_id id [("result", v)]).trans ?_
  exact congrArg Json.obj (Json.insert_of_lt hlast)

theorem mkObj_refused (id e : Json) : Json.mkObj [versionField, ("id", id), ("error", e)] =
    .obj [("error", e), ("id", id), versionField] := by
  refine (mkObj_id id [("error", e)]).trans ?_
  exact congrArg Json.obj (if_pos (show "error" < "id" by decide))

/-- A response whose text can be read, as what is read. -/
theorem parse?_of_decode {w w' : Response} {v id : Json}
    (hfits : ∀ f ∈ w.fields, Fits (depthLimit - 1) f.2)
    (hread : Json.mkObj (Json.rereadFields w.fields) = v) (hmethod : hasField "method" v = false)
    (hid : v.field? "id" = some id) (hnull : id.isNull = false)
    (hdecode : Response.record.decode v = .ok w') :
    Message.parse? w.text = some (.response w') := by
  have hhas : hasId v = true := by simp [hasId, hid, hnull]
  rw [Message.parse?, Response.text, Json.parse?_renderFields hfits, hread]
  change Message.ofJson? v = _
  rw [Message.ofJson?, hmethod, hhas, hdecode]
  rfl

theorem fits_reply {id v : Json} {name : String} (hid : Fits (depthLimit - 1) id)
    (hv : Fits (depthLimit - 1) v) :
    ∀ f ∈ [versionField, ("id", id), (name, v)], Fits (depthLimit - 1) f.2 :=
  List.forall_mem_cons.2 ⟨.str _, List.forall_mem_cons.2 ⟨hid, List.forall_mem_singleton.2 hv⟩⟩

/-- An answer with a result is read as a response with the same result. -/
theorem parse?_granted {id v : Json} (hid : Fits (depthLimit - 1) id)
    (hnull : id.isNull = false) (hv : Fits (depthLimit - 1) v) (hfree : v.isFloatFree = true) :
    Message.parse? (Response.mk id (some v) none).text =
      some (.response ⟨reread id, if v.isNull then none else some v, none⟩) := by
  have hfields : Json.rereadFields (Response.mk id (some v) none).fields =
      [versionField, ("id", reread id), ("result", v)] := by
    show [versionField, ("id", reread id), ("result", reread v)] = _
    rw [Json.reread_eq hfree]
  refine parse?_of_decode (fits_reply hid hv)
    ((congrArg Json.mkObj hfields).trans (mkObj_granted _ v)) rfl rfl
    (Json.isNull_reread hid hnull) ?_
  cases v <;> rfl

theorem fits_error {n : Nat} {e : ErrorObject} (h : Json.IsNumber (.int e.code)) :
    Fits (n + 1) e.toJson := by
  refine .obj (List.forall_mem_cons.2 ⟨.number h, List.forall_mem_singleton.2 (.str _)⟩) ?_
  refine List.pairwise_cons.2 ⟨?_, List.pairwise_singleton _ _⟩
  exact List.forall_mem_singleton.2 (show "code" < "message" by decide)

/-- An answer with an error is read as a response with the same error. -/
theorem parse?_refused {id : Json} (hid : Fits (depthLimit - 1) id)
    (hnull : id.isNull = false) (text : String) :
    Message.parse? (Response.mk id none (some ⟨unknownMethodCode, text⟩)).text =
      some (.response ⟨reread id, none, some ⟨unknownMethodCode, text⟩⟩) := by
  have hcode : Json.IsNumber (.int unknownMethodCode) := ⟨by decide, by decide⟩
  exact parse?_of_decode (fits_reply hid (fits_error hcode)) (mkObj_refused (reread id) _) rfl rfl
    (Json.isNull_reread hid hnull) rfl

/-! ## What is answered -/

/-- The methods that the server may call. -/
def supported : List String :=
  ["window/workDoneProgress/create", "client/registerCapability", "client/unregisterCapability",
   "workspace/configuration"]

/-- The result that a request with a supported method is due: for a request for configuration as
many nulls as it has items, and for the others a null. -/
def due (r : Request) : Json :=
  if r.method = "workspace/configuration" then
    match r.params.bind (Json.field? "items") with
    | some (.arr items) => .arr (List.replicate items.length .null)
    | _ => .arr []
  else .null

/-- **A text that answers a request.** Its fields stand in the order of the protocol, and the other
end, if it reads texts as this one does, is told the same. -/
structure Answered (r : Request) (text : String) : Prop where
  written : text = "\x7b\"jsonrpc\":\"2.0\",\"id\":" ++ Json.render r.id ++
    (if r.method ∈ supported then ",\"result\":" ++ Json.render (due r)
    else ",\"error\":" ++ Json.render (.obj [("code", .int (-32601)),
      ("message", .str ("Method not found: " ++ r.method))])) ++ "\x7d"
  read : ∃ w, Message.parse? text = some (.response w) ∧ (r.id.isFloatFree = true → w.id = r.id) ∧
    if r.method ∈ supported then
      w.result.getD .null = due r ∧ w.error = none
    else
      w.result = none ∧ ∃ e, w.error = some e ∧ e.code = -32601

theorem isRefused_iff {method : String} : isRefused method = true ↔ method ∉ supported := by
  have hmem : method ∈ supported ↔
      isGranted method = true ∨ method ∈ ["workspace/configuration"] := by
    rw [isGranted, List.contains_iff_mem]
    simp only [supported, List.mem_cons, List.not_mem_nil, or_false, or_assoc]
  rw [hmem, not_or, List.mem_singleton, isRefused, Bool.and_eq_true, bne_iff_ne, Bool.not_eq_true',
    Bool.not_eq_true]

theorem due_of_configuration {r : Request} (h : r.method = "workspace/configuration") :
    due r = .arr (List.replicate (itemCount r.params) .null) := by
  unfold due itemCount
  rw [if_pos h]
  cases r.params.bind (Json.field? "items") with
  | none => rfl
  | some v => cases v <;> rfl

theorem reply_of_supported {r : Request} (h : r.method ∈ supported) :
    reply r = ⟨r.id, some (due r), none⟩ := by
  have hrefused : isRefused r.method = false := by
    rw [Bool.eq_false_iff, ne_eq, isRefused_iff]
    exact not_not_intro h
  unfold reply
  rw [hrefused]
  by_cases hmethod : r.method = "workspace/configuration"
  · rw [due_of_configuration hmethod, hmethod]
    rfl
  · have hgranted : isGranted r.method = true := by
      rw [isRefused, Bool.and_eq_false_iff] at hrefused
      simpa [hmethod] using hrefused
    rw [hgranted, due, if_neg hmethod]
    rfl

theorem reply_of_unsupported {r : Request} (h : r.method ∉ supported) :
    reply r = ⟨r.id, none, some ⟨unknownMethodCode, "Method not found: " ++ r.method⟩⟩ := by
  have hrefused := isRefused_iff.2 h
  have hgranted : isGranted r.method = false := by
    rw [isRefused, Bool.and_eq_true] at hrefused
    simpa using hrefused.1
  unfold reply
  rw [hrefused, hgranted]
  rfl

theorem due_cases (r : Request) : due r = .null ∨ ∃ k, due r = .arr (List.replicate k .null) := by
  by_cases h : r.method = "workspace/configuration"
  · exact .inr ⟨_, due_of_configuration h⟩
  · exact .inl (if_neg h)

theorem areFloatFree_replicate (k : Nat) :
    Json.areFloatFree (List.replicate k .null) = true := by
  induction k with
  | zero => rfl
  | succ k ih => exact ih

theorem isFloatFree_due (r : Request) : (due r).isFloatFree = true := by
  rcases due_cases r with h | ⟨k, h⟩
  · rw [h]
    rfl
  · rw [h]
    exact areFloatFree_replicate k

theorem fits_due (n : Nat) (r : Request) : Fits (n + 1) (due r) := by
  rcases due_cases r with h | ⟨k, h⟩
  · rw [h]
    exact .null
  · rw [h]
    refine .arr fun v hv => ?_
    rw [List.eq_of_mem_replicate hv]
    exact .null

/-- **A request that has been read is answered.** -/
theorem answered_of_requestIn? {text : String} {r : Request} (h : requestIn? text = some r) :
    Answered r (reply r).text := by
  obtain ⟨-, -, -, hnull, hfits⟩ := id_of_requestIn? h
  by_cases hmethod : r.method ∈ supported
  · rw [reply_of_supported hmethod]
    constructor
    · rw [if_pos hmethod, ← String.append_assoc]
      exact renderFields_reply r.id (due r) (by rfl)
    · refine ⟨_, parse?_granted hfits hnull (fits_due _ r) (isFloatFree_due r), Json.reread_eq, ?_⟩
      rw [if_pos hmethod]
      rcases due_cases r with h | ⟨k, h⟩
      · rw [h]
        exact ⟨rfl, rfl⟩
      · rw [h]
        exact ⟨rfl, rfl⟩
  · rw [reply_of_unsupported hmethod]
    constructor
    · rw [if_neg hmethod, ← String.append_assoc]
      exact renderFields_reply r.id _ (by rfl)
    · refine ⟨_, parse?_refused hfits hnull _, Json.reread_eq, ?_⟩
      rw [if_neg hmethod]
      exact ⟨rfl, _, rfl, rfl⟩

/-! ## Runs -/

namespace Connection

/-- The connection after inbound texts, one after the other. -/
def receiveAll (c : Connection) (texts : List String) : Connection :=
  texts.foldl (fun c text => (c.receive text).1) c

theorem receive_of_requestIn? {c : Connection} {text : String} {r : Request}
    (h : requestIn? text = some r) : (c.receive text).1 = c.enqueue (reply r).text := by
  rw [receive, requestIn?_eq_some.1 h]

/-- **What one text puts on its way**: the answer to the request that it holds. -/
theorem receive_outbox_eq {c : Connection} (h : c.writable = true) (text : String) :
    (c.receive text).1.outbox =
      c.outbox ++ ((requestIn? text).map fun r => (reply r).text).toList := by
  cases hr : requestIn? text with
  | some r => rw [receive_of_requestIn? hr, enqueue_outbox h]; rfl
  | none =>
    rw [Option.map_none, Option.toList_none, List.append_nil]
    unfold receive
    split
    · rename_i w _
      show (c.deliver w).outbox = c.outbox
      unfold deliver
      split
      · split <;> rfl
      · rfl
    · rename_i r hp
      rw [requestIn?_eq_some.2 hp] at hr
      cases hr
    · rfl
    · rfl

theorem receiveAll_outbox {c : Connection} (h : c.writable = true) (texts : List String) :
    (c.receiveAll texts).outbox =
      c.outbox ++ (texts.filterMap requestIn?).map fun r => (reply r).text := by
  induction texts generalizing c with
  | nil => exact (List.append_nil _).symm
  | cons text texts ih =>
    have hwritable : (c.receive text).1.writable = true := (c.receive_rest text).2.2.trans h
    rw [receiveAll, List.foldl_cons]
    refine (ih hwritable).trans ?_
    rw [receive_outbox_eq h, List.append_assoc]
    cases hr : requestIn? text with
    | none => rw [List.filterMap_cons_none hr]; rfl
    | some r => rw [List.filterMap_cons_some hr]; rfl

/-- **Every request of the server is answered once**, in order, and nothing else is. Whatever text
holds a request, its answer carries the identifier that stands in the text, and nothing but the
texts on their way changes: what waits for a response waits on, under whatever number. -/
theorem server_requests_answered (c : Connection) (h : c.writable = true) (texts : List String) :
    (c.receiveAll texts).outbox =
        c.outbox ++ ((texts.filterMap requestIn?).map fun r => (reply r).text) ∧
      ∀ text r, requestIn? text = some r →
        (∃ v, Json.parse? text = some v ∧ v.field? "id" = some r.id ∧ r.id.isNull = false) ∧
        Answered r (reply r).text ∧
        ∀ d : Connection, (d.receive text).1 = { d with outbox := (d.receive text).1.outbox } := by
  refine ⟨receiveAll_outbox h texts, fun text r hr => ⟨?_, answered_of_requestIn? hr, ?_⟩⟩
  · obtain ⟨v, hv, hid, hnull, -⟩ := id_of_requestIn? hr
    exact ⟨v, hv, hid, hnull⟩
  · intro d
    rw [receive_of_requestIn? hr]
    unfold enqueue
    split
    · rfl
    · rfl

/-- A request with an unknown method whose number is one that waits, a notification, and a request
for configuration. -/
theorem server_requests_answered_same_number :
    let c : Connection := { pending := [7] }
    let refused := "\x7b\"jsonrpc\":\"2.0\",\"id\":7,\"method\":\"a\"\x7d"
    let note := "\x7b\"jsonrpc\":\"2.0\",\"method\":\"a\"\x7d"
    let asked := "\x7b\"jsonrpc\":\"2.0\",\"id\":[7],\"method\":\"workspace/configuration\"\x7d"
    let first : Request := ⟨.nat 7, "a", none⟩
    let second : Request := ⟨.arr [.nat 7], "workspace/configuration", none⟩
    c.writable = true ∧ requestIn? refused = some first ∧
      (c.receiveAll [refused, note, asked]).outbox = [(reply first).text, (reply second).text] ∧
      Answered first (reply first).text ∧ (c.receive refused).1.pending = [7] := by
  intro c refused note asked first second
  have hfirst : requestIn? "\x7b\"jsonrpc\":\"2.0\",\"id\":7,\"method\":\"a\"\x7d" =
      some first := by rfl
  have hnote : requestIn? "\x7b\"jsonrpc\":\"2.0\",\"method\":\"a\"\x7d" = none := by rfl
  have hsecond : requestIn?
      "\x7b\"jsonrpc\":\"2.0\",\"id\":[7],\"method\":\"workspace/configuration\"\x7d" =
        some second := by rfl
  obtain ⟨hout, hrequests⟩ := server_requests_answered c rfl [refused, note, asked]
  obtain ⟨-, hanswered, hrest⟩ := hrequests refused first hfirst
  refine ⟨rfl, hfirst, ?_, hanswered, ?_⟩
  · rw [hout, List.filterMap_cons_some hfirst, List.filterMap_cons_none hnote,
      List.filterMap_cons_some hsecond]
    rfl
  · rw [hrest c]

end Connection

end SymbolContext.Rpc
