/-
Module: CodeNav.Proofs.Service.Presence
Purpose: Whether a document is said to be there, and whether a query for it finds it.
Main exports:
  Service.AsksPresence, Service.AsksQuery, Service.Displaced, Service.presence_agrees
-/
import CodeNav.Proofs.Encoding.Missing
import CodeNav.Proofs.Service.Running

namespace CodeNav

open Failure (NothingMissing)
open Http (Parameters Request Response Status)

/-! ### What is opened -/

/-- Tables are opened as what they are. -/
theorem Encoding.kind_of_openContent {kind : Encoding} {path : String} {content : Content}
    {tables : Tables} (opens : kind.openContent path content = .ok (.tables tables)) :
    tables.kind = kind := by
  have ofTables {other : Tables}
      (opens : Source.ofTables kind path other = .ok (.tables tables)) : tables.kind = kind := by
    unfold Source.ofTables at opens
    split at opens
    · cases opens
      assumption
    · cases opens
  cases kind with
  | json =>
      obtain ⟨octets, _, opens⟩ := Success.bind_eq_ok.mp opens
      obtain ⟨dump, _, whole⟩ := Success.bind_eq_ok.mp opens
      cases whole
  | graph =>
      obtain ⟨other, _, opens⟩ := Success.bind_eq_ok.mp opens
      exact ofTables opens
  | blob =>
      obtain ⟨other, _, opens⟩ := Success.bind_eq_ok.mp opens
      exact ofTables opens

namespace Uncached

variable {s : Service} {target : Target} {source : Source} {path : String}

/-- What is opened comes from a file of the target. -/
theorem exists_isFrom (stored : opened s target = .ok source) :
    ∃ loaded : Loaded, loaded.IsFrom s.files (s.basePath target) s.flags.enabled ∧
      loaded.source = source := by
  obtain ⟨loaded, first, same⟩ := Success.map_eq_ok.mp stored
  rcases Loaded.firstOf_cases (s.basePath target) s.flags.enabled s.files with
    ⟨found, run, isFrom⟩ | nothing
  · cases first.symm.trans run
    exact ⟨loaded, isFrom, same⟩
  · cases first.symm.trans nothing

/-- Of a target that is opened there is data. -/
theorem hasData_of_opened (stored : opened s target = .ok source) : s.hasData target = true := by
  obtain ⟨loaded, isFrom, _⟩ := exists_isFrom stored
  obtain ⟨f, stands, _⟩ := isFrom.stands
  apply List.any_eq_true.mpr
  refine ⟨loaded.kind, isFrom.kind, ?_⟩
  rw [Files.contains_eq, ← isFrom.path, stands]
  rfl

/-- What is opened was stored as a dump. -/
theorem ofElements_of_opened [Gzip.Compressor] (dumps : s.files.HoldsDumps s.root)
    (commit : Target.isCommit target.commit) (stored : opened s target = .ok source) :
    ∃ kind elements, Source.ofElements kind elements = .ok source := by
  obtain ⟨loaded, isFrom, rfl⟩ := exists_isFrom stored
  obtain ⟨f, stands, _, opens⟩ := isFrom.stands
  rw [isFrom.path] at stands opens
  exact ⟨loaded.kind, dumps target loaded.kind f loaded.source commit stands opens⟩

/-- A document is there if a dump can be opened that knows it. -/
theorem isPresent_eq (s : Service) (target : Target) (nonempty : path ≠ "") :
    isPresent s target (some path) =
      .ok ((opened s target).toOption.any (·.hasDocument path)) := by
  have asked : isPresent s target (some path) =
      if !s.hasData target then .ok false else hasDocument s target path := by
    simp [isPresent]
  rw [asked]
  unfold hasDocument
  cases stored : opened s target with
  | ok source =>
      rw [hasData_of_opened stored]
      rfl
  | error failure =>
      rw [opened_error stored]
      split <;> rfl

/-- Whatever is asked about a document, the answer is made from it. -/
theorem answer_eq_map [Gzip.Compressor] (s : Service) (source : Source) (method : QueryMethod)
    (path : String) (position : Position) : ∃ value : Document → Json.Value,
      answer s source method path position = (source.answer path).map value := by
  unfold answer hover definitions references
  cases source.answer path with
  | error failure => exact ⟨fun _ => .null, by cases method <;> rfl⟩
  | ok document => cases method <;> exact ⟨fun _ => _, rfl⟩

end Uncached

/-! ### Requests about a document -/

namespace Service

/-- A request that asks whether a document of a target is there. -/
structure AsksPresence (request : Request) (target : Target) (path : String) : Prop where
  post : request.method = "POST"
  endpoint : Endpoint.ofPath? request.path = some .presence
  parameters : ∃ parameters,
    Parameters.ofQuery [["file"], Endpoint.targetNames] request.query = .ok parameters ∧
    Endpoint.targetOf parameters = .ok target ∧ parameters.get? "file" = some path

/-- A request that asks something about a document of a target. -/
structure AsksQuery (request : Request) (target : Target) (path : String) : Prop where
  post : request.method = "POST"
  endpoint : Endpoint.ofPath? request.path = some .query
  names : Endpoint.NamesTarget request target
  body : ∃ position method, ∃ name, Endpoint.queryBody request = .ok ⟨path, position, name⟩ ∧
    QueryMethod.ofName? name = some method

/-- A target is served from the graph of some elements, in which the document that a path leads to
has been displaced. -/
def Displaced (s : Service) (target : Target) (path : String) (elements : List Element) : Prop :=
  ∃ dump, Dump.ofElements elements = .ok dump ∧
    Uncached.opened s target = .ok (.tables (.graph (.ofDump elements dump))) ∧
    dump.Displaces elements path

section

variable {s : Service} {request : Request} {target : Target} {path : String}

theorem AsksPresence.reply (asks : AsksPresence request target path) (nonempty : path ≠ "")
    (s : Service) : Uncached.presence s request =
      .json .ok (.bool ((Uncached.opened s target).toOption.any (·.hasDocument path))) := by
  obtain ⟨parameters, read, valid, file⟩ := asks.parameters
  unfold Uncached.presence
  rw [read]
  dsimp only
  unfold Uncached.presenceOf
  rw [valid, file]
  change Uncached.settle ((Uncached.isPresent s target (some path)).mapError .failure >>=
    fun found => .ok (.json .ok (.bool found))) = _
  rw [Uncached.isPresent_eq s target nonempty]
  rfl

/-- Without graphs no document is displaced. -/
theorem Displaced.graph_enabled {elements : List Element}
    (displaced : s.Displaced target path elements) : .graph ∈ s.flags.enabled := by
  obtain ⟨dump, _, stored, _⟩ := displaced
  obtain ⟨loaded, isFrom, same⟩ := Uncached.exists_isFrom stored
  obtain ⟨f, _, _, opens⟩ := isFrom.stands
  rw [same] at opens
  have kind : .graph = loaded.kind := Encoding.kind_of_openContent opens
  rw [kind]
  exact isFrom.kind

variable [Gzip.Compressor]

/-- A query is answered as not found exactly if no dump can be opened, or the one that is opened
does not find the document. -/
theorem AsksQuery.status_ne_notFound_iff (asks : AsksQuery request target path) (s : Service) :
    (Uncached.query s request).status ≠ .notFound ↔
      ∃ source, Uncached.opened s target = .ok source ∧ NothingMissing (source.answer path) := by
  obtain ⟨parameters, read, valid⟩ := asks.names
  obtain ⟨position, method, name, body, known⟩ := asks.body
  have asked : Uncached.query s request =
      Uncached.settle ((Uncached.queryValue s target method ⟨path, position, name⟩).map
        (.json .ok)) := by
    unfold Uncached.query
    rw [read, body]
    dsimp only
    unfold Uncached.queryOf
    rw [valid, known]
    change Uncached.settle (Uncached.queryValue s target method ⟨path, position, name⟩ >>=
      fun value => .ok (.json .ok value)) = _
    cases Uncached.queryValue s target method ⟨path, position, name⟩ <;> rfl
  rw [asked]
  unfold Uncached.queryValue
  cases stored : Uncached.opened s target with
  | error failure =>
      rw [Uncached.opened_error stored]
      constructor
      · exact fun other => absurd rfl other
      · rintro ⟨source, same, _⟩
        cases same
  | ok source =>
      obtain ⟨value, answered⟩ := Uncached.answer_eq_map s source method path position
      dsimp only
      rw [answered]
      cases found : source.answer path with
      | ok document =>
          constructor
          · intro _
            exact ⟨source, rfl, found ▸ .ok document⟩
          · exact fun _ => nofun
      | error failure =>
          change Rejection.failureStatus failure ≠ .notFound ↔ _
          unfold Rejection.failureStatus
          constructor
          · intro other
            refine ⟨source, rfl, found ▸ .error ?_⟩
            cases missing : failure.isNotFound with
            | false => rfl
            | true => simp [missing] at other
          · rintro ⟨_, same, nothingMissing⟩
            cases same
            rw [nothingMissing failure found]
            simp only [Bool.false_eq_true, if_false]
            split <;> exact nofun

/-- An inquiry is answered from what is stored, and leaves that as it is. -/
theorem Mirrors.presence {u : Service} (mirrors : u.Mirrors s)
    (asks : AsksPresence request target path) (elapsed : Binary64) :
    (respond elapsed request s).1 = Uncached.presence u request ∧
      u.Mirrors (respond elapsed request s).2 := by
  have unobserved : Uncached.Unobserved request := by
    unfold Uncached.Unobserved
    rw [asks.endpoint]
    decide
  have uncached : Uncached.respond elapsed request u = (Uncached.presence u request, u) := by
    unfold Uncached.respond
    rw [asks.post, asks.endpoint]
    rfl
  have noUpload : ¬ IsUpload request := by
    rintro ⟨_, upload⟩
    rw [asks.endpoint] at upload
    cases upload
  have answered := Uncached.respond_mirrors mirrors elapsed unobserved
    fun _ _ _ upload => absurd upload noUpload
  rwa [uncached] at answered

/-- A query is answered from what is stored. -/
theorem Mirrors.query {u : Service} (mirrors : u.Mirrors s) (asks : AsksQuery request target path)
    (elapsed : Binary64) : (respond elapsed request s).1 = Uncached.query u request := by
  unfold respond
  rw [asks.post, asks.endpoint]
  exact (Uncached.answer_query mirrors.reflects elapsed request).1

/-! ### Agreement -/

/-- The dump of a target finds the documents that it knows, unless they have been displaced. -/
theorem Orderly.finds_iff (orderly : s.Orderly) (commit : Target.isCommit target.commit)
    (inPlace : ∀ elements, ¬ s.Displaced target path elements) :
    (∃ source, Uncached.opened s target = .ok source ∧ NothingMissing (source.answer path)) ↔
      (Uncached.opened s target).toOption.any (·.hasDocument path) = true := by
  cases stored : Uncached.opened s target with
  | error failure =>
      constructor
      · rintro ⟨source, same, _⟩
        cases same
      · exact nofun
  | ok source =>
      obtain ⟨kind, elements, converted⟩ :=
        Uncached.ofElements_of_opened orderly.dumps commit stored
      obtain ⟨dump, accepted⟩ := Source.accepted_of_ofElements converted
      have kept : kind = .graph → ¬ dump.Displaces elements path := by
        rintro rfl displaced
        unfold Source.ofElements Tables.ofElements at converted
        rw [accepted] at converted
        cases converted
        exact inPlace elements ⟨dump, accepted, stored, displaced⟩
      have finds := Source.nothingMissing_iff accepted converted kept
      constructor
      · rintro ⟨_, same, found⟩
        cases same
        exact finds.mp found
      · exact fun known => ⟨source, rfl, finds.mpr known⟩

/-- A document that has been displaced is known, and is not found. -/
theorem Displaced.missing {elements : List Element} (displaced : s.Displaced target path elements) :
    (Uncached.opened s target).toOption.any (·.hasDocument path) = true ∧
      (Element.Legible elements → ¬ ∃ source, Uncached.opened s target = .ok source ∧
        NothingMissing (source.answer path)) := by
  obtain ⟨dump, accepted, stored, displaced⟩ := displaced
  obtain ⟨known, missing⟩ := Source.displaced_missing accepted displaced
  rw [stored]
  refine ⟨known, ?_⟩
  rintro legible ⟨_, same, found⟩
  cases same
  cases found _ (missing legible)

end

/-- Whatever a service has answered before, it says that a document is there exactly if every query
of the document is answered with another status than that nothing is found, then and behind the
inquiry. The one exception is a document of a graph that has been displaced: it is said to be there,
and a query does not find it if the vertices of its dump are legible. -/
theorem presence_agrees [Gzip.Compressor] {s : Service} (running : s.Running)
    {presence query : Request} {target : Target} {path : String} (nonempty : path ≠ "")
    (asks : AsksPresence presence target path) (queries : AsksQuery query target path)
    (elapsed elapsed' : Binary64) :
    let status := (respond elapsed' query s).1.status
    (respond elapsed' query (respond elapsed presence s).2).1.status = status ∧
      ((∀ elements, ¬ s.Displaced target path elements) →
        (respond elapsed presence s).1 = .json .ok (.bool (decide (status ≠ .notFound)))) ∧
      ∀ elements, s.Displaced target path elements →
        (respond elapsed presence s).1 = .json .ok (.bool true) ∧
        (Element.Legible elements → status = .notFound) := by
  have orderly := running.orderly
  have mirrors := orderly.fresh.mirrors orderly.inProcess
  obtain ⟨reply, after⟩ := mirrors.presence asks elapsed
  have finds := queries.status_ne_notFound_iff s
  rw [asks.reply nonempty] at reply
  rw [after.query queries, mirrors.query queries, reply]
  refine ⟨rfl, ?_, ?_⟩
  · intro inPlace
    have agree := finds.trans (orderly.finds_iff queries.names.isCommit inPlace)
    congr 2
    rw [Bool.eq_iff_iff, decide_eq_true_iff]
    exact agree.symm
  · intro elements displaced
    obtain ⟨known, missing⟩ := displaced.missing
    rw [known]
    refine ⟨rfl, fun legible => ?_⟩
    have absent := missing legible
    rw [← finds] at absent
    exact not_not.mp absent

/-- An upload of a dump of one document, whose identifier a later vertex has too. -/
def displacingUpload : Request :=
  { smallUpload with
    body := ⟨[Utf8.encode
      ("\x7b\"id\":1,\"type\":\"vertex\",\"label\":\"document\",\"uri\":\"p\"\x7d\n" ++
        "\x7b\"id\":1,\"type\":\"vertex\",\"label\":\"resultSet\"\x7d")], none⟩ }

open scoped Gzip

/-- The service that has stored it in some encodings. -/
def displacing (flags : EncodingFlags) : Service :=
  (respond (.ofNat 0) displacingUpload
    (.start "dumps" flags ⟨100000, 1000, 1000, 1000⟩ (bareTree "dumps") (.available .empty)
      Converter.builtin)).2

/-- An inquiry whether a document is there. -/
def documentInquiry (path : String) : Request :=
  { smallUpload with
    path := "/exists"
    query := smallUpload.query ++ "&file=" ++ path
    body := ⟨[], none⟩ }

/-- A query of what is shown at its start. -/
def documentQuery (path : String) : Request :=
  { smallUpload with
    path := "/request"
    headers := [("content-type", "application/json")]
    body := ⟨[Utf8.encode ("\x7b\"path\":\"" ++ path ++
      "\",\"position\":\x7b\"line\":0,\"character\":0\x7d,\"method\":\"hover\"\x7d")], none⟩ }

theorem running_displacing (flags : EncodingFlags) : (displacing flags).Running := by
  refine .respond _ _ (.start _ _ _ _ _ _ (bareTree_timely _) (bareTree_temporaryFile _) ?_ ?_)
  · exact fun target kind _ => bareTree_dumpFile _ target kind
  · intro target kind f source _ stands
    rw [bareTree_noDump] at stands
    cases stands

theorem asksPresence_documentInquiry : AsksPresence (documentInquiry "p") smallTarget "p" where
  post := rfl
  endpoint := rfl
  parameters := ⟨[("repository", "r"), ("commit", "0000000000000000000000000000000000000000"),
    ("file", "p")], by decide +kernel, by decide +kernel, by decide +kernel⟩

theorem asksQuery_documentQuery : AsksQuery (documentQuery "p") smallTarget "p" where
  post := rfl
  endpoint := rfl
  names := smallUpload_names
  body := ⟨⟨0, 0⟩, .hover, "hover", by decide +kernel, by decide +kernel⟩

/-- Where the dump is stored as it is, the document is there and a query finds it. -/
theorem presence_agrees_sample :
    (respond (.ofNat 0) (documentInquiry "p") (displacing ⟨true, false, false⟩)).1 =
        .json .ok (.bool true) ∧
      (respond (.ofNat 0) (documentQuery "p") (displacing ⟨true, false, false⟩)).1.status ≠
        .notFound := by
  have known : (respond (.ofNat 0) (documentInquiry "p") (displacing ⟨true, false, false⟩)).1 =
      .json .ok (.bool true) := by
    decide +kernel
  have noGraph : .graph ∉ (displacing ⟨true, false, false⟩).flags.enabled := by decide +kernel
  have inPlace (elements : List Element) :
      ¬ (displacing ⟨true, false, false⟩).Displaced smallTarget "p" elements :=
    fun displaced => noGraph displaced.graph_enabled
  have agrees := (presence_agrees (running_displacing ⟨true, false, false⟩) (by decide)
    asksPresence_documentInquiry asksQuery_documentQuery (.ofNat 0) (.ofNat 0)).2.1 inPlace
  refine ⟨known, fun missing => ?_⟩
  rw [known, missing] at agrees
  revert agrees
  decide

/-- In a graph the document is displaced: it is said to be there, and a query does not find it. -/
theorem presence_may_disagree :
    ¬ ∀ (s : Service) (presence query : Request) (target : Target) (path : String)
      (elapsed elapsed' : Binary64), s.Running → path ≠ "" → AsksPresence presence target path →
      AsksQuery query target path →
      ((respond elapsed presence s).1 = .json .ok (.bool true) ↔
        (respond elapsed' query s).1.status ≠ .notFound) := by
  intro claim
  have agrees := claim (displacing ⟨false, true, false⟩) _ _ _ _ (.ofNat 0) (.ofNat 0)
    (running_displacing ⟨false, true, false⟩) (by decide) asksPresence_documentInquiry
    asksQuery_documentQuery
  have ⟨known, missing⟩ :
      (respond (.ofNat 0) (documentInquiry "p") (displacing ⟨false, true, false⟩)).1 =
          .json .ok (.bool true) ∧
        (respond (.ofNat 0) (documentQuery "p") (displacing ⟨false, true, false⟩)).1.status =
          .notFound := by
    decide +kernel
  exact agrees.mp known missing

end Service

end CodeNav
