import Precis.Proofs.Json.Members
import Precis.Proofs.Service.Base

/-!
Contract: what the services send each other arrives as it was.

Owns that each record of the services survives being written as JSON and read
again, from every text of what was written, at once or by way of generic JSON;
and what this means for the client of the summary service.

Does not own other spellings of the same records.
-/

namespace Precis.Json

/-- What is written as `value` is read as `record`, from every text of it: at
once, or by way of generic JSON. -/
structure Survives {α : Type} (decode : Decoder α) (value : Value) (record : α) : Prop where
  written : Transcribes value value.text
  read : ∀ text, Transcribes value text →
    ∃ document, Document.ofText? text = some document ∧
      Document.ofBytes? (Text.Utf8.encode text.toList) = some document ∧
      decode document = .ok record ∧
      ∃ generic, document.toValue? = some generic ∧ decode generic.toDocument = .ok record

theorem Flat.survives
    {α : Type}
    {decode : Decoder α}
    {value : Value}
    {entries : List (String × Value)}
    {record : α}
    (flat : Flat value entries)
    (reads : ∀ members, WrittenFrom entries members → decode (.object members) = .ok record) :
    Survives decode value record where
  written := flat.transcribes_text
  read text transcribes := by
    obtain ⟨members, written, spells⟩ := flat.exists_written transcribes
    obtain ⟨generic, kept, isValue, isObject, keptWritten⟩ := flat.exists_toValue? written
    refine ⟨.object members, ofText?_of_spells spells, ofBytes?_of_spells spells,
      reads members written, generic, isValue, ?_⟩
    rw [isObject]
    exact reads kept keptWritten

end Precis.Json

namespace Precis

open Json

/-! ### Names and numbers -/

namespace Model

theorem Family.decode_toValue (family : Family) :
    Family.decode family.toValue.toDocument = .ok family := by
  cases family <;> rfl

theorem Id.decode_toValue (id : Id) : Id.decode id.toValue.toDocument = .ok id := by
  cases id <;> rfl

theorem Id.decodeOptional_toValue (id : Id) :
    decodeOptional Id.decode id.toValue.toDocument = .ok (some id) := by
  cases id <;> rfl

end Model

namespace Summary

theorem decode_unsigned32Value (number : UInt32) :
    decodeOptional decodeUnsigned32 (unsigned32Value number).toDocument = .ok (some number) := by
  have bounded : (number.toNat : Int) ≤ (4294967295 : Nat) := by
    have := number.toNat_lt
    omega
  show Except.map some (decodeUnsigned32 (.number (.integer number.toNat))) = _
  rw [decodeUnsigned32, decodeUnsigned, if_pos ⟨Int.natCast_nonneg _, bounded⟩]
  show Except.ok (some (UInt32.ofNat number.toNat)) = _
  rw [UInt32.ofNat_toNat]

@[simp] theorem isScalar_unsigned32Value (number : UInt32) : (unsigned32Value number).IsScalar := by
  refine ⟨number.toNat, ?_, rfl⟩
  have := number.toNat_lt
  unfold Number.significandLimit
  omega

/-! ### Requests for a summary -/

namespace Request

/-- The members of a request, in declared order. -/
def entries (request : Request) : List (String × Value) :=
  [("family", request.family.toValue), ("prompt", .string request.instruction),
      ("text", .string request.text)] ++
    (match request.model with
      | some model => [("model", model.toValue)]
      | none => []) ++
    (match request.ceiling with
      | some ceiling => [("max_input_tokens", unsigned32Value ceiling)]
      | none => [])

theorem flat (request : Request) : Flat request.toValue request.entries where
  value_eq := rfl
  distinct := by
    obtain ⟨family, instruction, text, model, ceiling⟩ := request
    cases model <;> cases ceiling <;> simp [entries]
  scalar := by
    obtain ⟨family, instruction, text, model, ceiling⟩ := request
    cases model <;> cases ceiling <;>
      simp [entries, Model.Family.toValue, Model.Id.toValue]

theorem member?_model (request : Request) :
    request.toValue.member? "model" = request.model.map Model.Id.toValue := by
  apply Option.ext
  intro found
  rw [request.flat.member?_eq_some_iff]
  obtain ⟨family, instruction, text, model, ceiling⟩ := request
  cases model <;> cases ceiling <;> simp [entries, eq_comm]

theorem member?_ceiling (request : Request) :
    request.toValue.member? "max_input_tokens" = request.ceiling.map unsigned32Value := by
  apply Option.ext
  intro found
  rw [request.flat.member?_eq_some_iff]
  obtain ⟨family, instruction, text, model, ceiling⟩ := request
  cases model <;> cases ceiling <;> simp [entries, eq_comm]

theorem model_yields {request : Request} {members : Members}
    (written : WrittenFrom request.entries members) :
    Yields (decodeOptional Model.Id.decode) members "model" none request.model := by
  cases given : request.model with
  | none =>
      refine .inr ⟨written.absent ?_, rfl⟩
      cases ceiling : request.ceiling <;> simp [entries, given, ceiling]
  | some model =>
      refine .inl (written.holds request.flat.distinct ?_ model.decodeOptional_toValue)
      simp [entries, given]

theorem ceiling_yields {request : Request} {members : Members}
    (written : WrittenFrom request.entries members) :
    Yields (decodeOptional decodeUnsigned32) members "max_input_tokens" none request.ceiling := by
  cases given : request.ceiling with
  | none =>
      refine .inr ⟨written.absent ?_, rfl⟩
      cases model : request.model <;> simp [entries, given, model]
  | some ceiling =>
      refine .inl (written.holds request.flat.distinct ?_ (decode_unsigned32Value ceiling))
      simp [entries, given]

theorem decode_of_written {request : Request} {members : Members}
    (written : WrittenFrom request.entries members) :
    decode (.object members) = .ok request := by
  have given := request.flat.distinct
  have family : Holds Model.Family.decode members "family" request.family :=
    written.holds given (by simp [entries]) request.family.decode_toValue
  have instruction : Holds decodeText members "prompt" request.instruction :=
    written.holds_text given (by simp [entries])
  have text : Holds decodeText members "text" request.text :=
    written.holds_text given (by simp [entries])
  have model := model_yields written
  have ceiling := ceiling_yields written
  apply decodeRecord_of_readable (written.namedOnce given _)
    (readable_storing family.decode_eq <| readable_storing instruction.decode_eq <|
      readable_storing text.decode_eq <| readable_storing model.decode_eq <|
      readable_storing ceiling.decode_eq <| readable_nil members)
  intro final reads
  have distinct : (FieldRule.names fields).Nodup := by decide
  have finalFamily : final.family = some request.family :=
    reads.part_of_holds 0 rfl distinct (by simp) (fun _ _ => rfl) family
  have finalInstruction : final.instruction = some request.instruction :=
    reads.part_of_holds 1 rfl distinct (by simp) (fun _ _ => rfl) instruction
  have finalText : final.text = some request.text :=
    reads.part_of_holds 2 rfl distinct (by simp) (fun _ _ => rfl) text
  have finalModel : final.model = id request.model :=
    reads.part_of_yields 3 rfl distinct (by simp) (fun _ _ => rfl) rfl model
  have finalCeiling : final.ceiling = id request.ceiling :=
    reads.part_of_yields 4 rfl distinct (by simp) (fun _ _ => rfl) rfl
      ceiling
  simp only [finalFamily, finalInstruction, finalText, finalModel, finalCeiling]
  rfl

end Request

/-! ### Summaries -/

namespace Digest

def entries (digest : Digest) : List (String × Value) :=
  [("summary", .string digest.text), ("model", digest.model.toValue)]

theorem flat (digest : Digest) : Flat digest.toValue digest.entries where
  value_eq := rfl
  distinct := by simp [entries]
  scalar := by simp [entries, Model.Id.toValue]

theorem decode_of_written {digest : Digest} {members : Members}
    (written : WrittenFrom digest.entries members) : decode (.object members) = .ok digest := by
  have given := digest.flat.distinct
  have text : Holds decodeText members "summary" digest.text :=
    written.holds_text given (by simp [entries])
  have model : Holds Model.Id.decode members "model" digest.model :=
    written.holds given (by simp [entries]) digest.model.decode_toValue
  apply decodeRecord_of_readable (written.namedOnce given _)
    (readable_storing text.decode_eq <| readable_storing model.decode_eq <| readable_nil members)
  intro final reads
  have distinct : (FieldRule.names fields).Nodup := by decide
  have finalText : final.text = some digest.text :=
    reads.part_of_holds 0 rfl distinct (by simp) (fun _ _ => rfl) text
  have finalModel : final.model = some digest.model :=
    reads.part_of_holds 1 rfl distinct (by simp) (fun _ _ => rfl) model
  simp only [finalText, finalModel]
  rfl

end Digest

end Summary

namespace Service

/-! ### Tasks -/

theorem TodoApp.decode_toValue (app : TodoApp) :
    TodoApp.decode app.toValue.toDocument = .ok app := by
  cases app
  rfl

namespace Task

def entries (task : Task) : List (String × Value) :=
  [("app", task.app.toValue), ("subject", .string task.subject), ("body", .string task.body)]

theorem flat (task : Task) : Flat task.toValue task.entries where
  value_eq := rfl
  distinct := by simp [entries]
  scalar := by simp [entries, TodoApp.toValue]

theorem decode_of_written {task : Task} {members : Members}
    (written : WrittenFrom task.entries members) : decode (.object members) = .ok task := by
  have given := task.flat.distinct
  have app : Holds TodoApp.decode members "app" task.app :=
    written.holds given (by simp [entries]) task.app.decode_toValue
  have subject : Holds decodeText members "subject" task.subject :=
    written.holds_text given (by simp [entries])
  have body : Holds decodeText members "body" task.body :=
    written.holds_text given (by simp [entries])
  apply decodeRecord_of_readable (written.namedOnce given _)
    (readable_storing app.decode_eq <| readable_storing subject.decode_eq <|
      readable_storing body.decode_eq <| readable_nil members)
  intro final reads
  have distinct : (FieldRule.names fields).Nodup := by decide
  have finalApp : final.app = some task.app :=
    reads.part_of_holds 0 rfl distinct (by simp) (fun _ _ => rfl) app
  have finalSubject : final.subject = some task.subject :=
    reads.part_of_holds 1 rfl distinct (by simp) (fun _ _ => rfl) subject
  have finalBody : final.body = some task.body :=
    reads.part_of_holds 2 rfl distinct (by simp) (fun _ _ => rfl) body
  simp only [finalApp, finalSubject, finalBody]
  rfl

end Task

namespace CreatedTask

def entries (task : CreatedTask) : List (String × Value) :=
  [("id", (task.id.map Value.string).getD .null)]

theorem flat (task : CreatedTask) : Flat task.toValue task.entries where
  value_eq := rfl
  distinct := by simp [entries]
  scalar := by
    obtain ⟨id⟩ := task
    cases id <;> simp [entries]

theorem decode_of_written {task : CreatedTask} {members : Members}
    (written : WrittenFrom task.entries members) : decode (.object members) = .ok task := by
  have given := task.flat.distinct
  have idRead : decodeOptional decodeText ((task.id.map Value.string).getD .null).toDocument =
      .ok task.id := by
    obtain ⟨id⟩ := task
    cases id <;> rfl
  have id : Yields (decodeOptional decodeText) members "id" none task.id :=
    .inl (written.holds given List.mem_cons_self idRead)
  exact decodeRecord_single "CreatedTask" _ (written.namedOnce given _) id

end CreatedTask

/-! ### Health reports -/

theorem ServingStatus.decode_toValue (status : ServingStatus) :
    ServingStatus.decode status.toValue.toDocument = .ok status := by
  cases status <;> rfl

namespace HealthReport

def entries (report : HealthReport) : List (String × Value) :=
  [("status", report.status.toValue)]

theorem flat (report : HealthReport) : Flat report.toValue report.entries where
  value_eq := rfl
  distinct := by simp [entries]
  scalar := by simp [entries, ServingStatus.toValue]

theorem decode_of_written {report : HealthReport} {members : Members}
    (written : WrittenFrom report.entries members) : decode (.object members) = .ok report := by
  have given := report.flat.distinct
  have status : Holds ServingStatus.decode members "status" report.status :=
    written.holds given List.mem_cons_self report.status.decode_toValue
  apply decodeRecord_of_readable (written.namedOnce given _)
    (readable_storing status.decode_eq <| readable_nil members)
  intro final reads
  have distinct : (FieldRule.names fields).Nodup := by decide
  have finalStatus : id final = some report.status :=
    reads.part_of_holds 0 rfl distinct (by simp) (fun _ _ => rfl) status
  simp only [show final = some report.status from finalStatus]
  rfl

end HealthReport

/-! ### All payloads -/

/-- Every record of the services comes back from what it was written as. In a
request, a model or a ceiling is there if and only if it is given. The summary
service can read from what a client sends exactly the request of the caller,
and the caller gets exactly the summary that the service answers with. -/
theorem payloads_survive [Url.DomainCoding] :
    (∀ request : Summary.Request,
      Survives Summary.Request.decode request.toValue request ∧
        request.toValue.member? "model" = request.model.map Model.Id.toValue ∧
        request.toValue.member? "max_input_tokens" =
          request.ceiling.map Summary.unsigned32Value) ∧
    (∀ digest : Summary.Digest, Survives Summary.Digest.decode digest.toValue digest) ∧
    (∀ task : Task, Survives Task.decode task.toValue task) ∧
    (∀ task : CreatedTask, Survives CreatedTask.decode task.toValue task) ∧
    (∀ report : HealthReport, Survives HealthReport.decode report.toValue report) ∧
    (∀ (name address : String) (connection : Connection) (request : Summary.Request)
      (limit : Duration) (serve : Http.Request → Option Http.Handling),
      Connection.connect name address = .ok connection →
      ∃ sent body, sent.body = some body ∧ Survives Summary.Request.decode body request ∧
        ((Operation.summarize request).run (.opened connection) limit serve).sent = [sent] ∧
        ∀ (digest : Summary.Digest) (text : String) (response : Http.Response),
          Transcribes digest.toValue text →
          response.body = some (Text.Utf8.encode text.toList) →
          Http.isSuccess response.status = true →
          Http.AnswersWithin limit serve sent response →
          ((Operation.summarize request).run (.opened connection) limit serve).result =
            .ok digest) := by
  have requests (request : Summary.Request) :
      Survives Summary.Request.decode request.toValue request :=
    request.flat.survives fun _ => Summary.Request.decode_of_written
  have digests (digest : Summary.Digest) :
      Survives Summary.Digest.decode digest.toValue digest :=
    digest.flat.survives fun _ => Summary.Digest.decode_of_written
  refine ⟨fun request => ⟨requests request, request.member?_model, request.member?_ceiling⟩,
    digests,
    fun task => task.flat.survives fun _ => Task.decode_of_written,
    fun task => task.flat.survives fun _ => CreatedTask.decode_of_written,
    fun report => report.flat.survives fun _ => HealthReport.decode_of_written, ?_⟩
  intro name address connection request limit serve connected
  have known : (Operation.summarize request).method ∈ servicePaths :=
    show "summarize" ∈ servicePaths by decide
  refine ⟨callOf connection (Operation.summarize request), request.toValue, rfl,
    requests request, sent_run connected limit serve _ known, ?_⟩
  intro digest text response transcribes isBody success answers
  rw [run_result_eq_ok_iff connected limit serve _ known]
  refine ⟨response, answers, success, ?_⟩
  obtain ⟨document, _, isDocument, _, generic, isGeneric, decoded⟩ :=
    (digests digest).read text transcribes
  refine ⟨generic, ?_, decoded⟩
  rw [Connection.reply?, isBody, Option.bind_some, isDocument, Option.bind_some, isGeneric]

end Service

end Precis
