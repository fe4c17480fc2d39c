/-
Module: CodeNav.Proofs.Service.Uploads
Purpose: An upload up to the point where its files are moved: what it has made, and where.
Main exports:
  Upload.discard_run, Upload.receive_run, Upload.validate_run, Upload.convertAll_run
-/
import CodeNav.Proofs.Service.Sound
import CodeNav.Service.Endpoint

namespace CodeNav.Upload

open Stateful
open Http (Stream)
open Service (temporaryFile)

/-! ### Temporary files -/

theorem temporaryPath_run (kind : Encoding) (s : Service) :
    temporaryPath kind.extension s =
      (.ok (temporaryFile s.root s.temporaries kind),
        { s with temporaries := s.temporaries + 1 }) :=
  rfl

theorem attempt_onFiles {c : FilesM Unit} {s : Service} {outcome : Except Failure Unit}
    {files : Files} (run : c s.files = (outcome, files)) :
    ServiceM.attempt (ServiceM.onFiles c) s = (.ok outcome, { s with files }) := by
  unfold ServiceM.attempt ServiceM.onFiles
  rw [run]

/-- Discarding removes files and passes over what is not there. -/
theorem discard_run (s : Service) {paths : List String}
    (plain : ∀ path ∈ paths, s.files.find? path ≠ some .directory) :
    discard paths s = (.ok ⟨⟩, { s with files := s.files.eraseAll paths }) := by
  induction paths generalizing s with
  | nil => rfl
  | cons path rest ih =>
      have removed : FilesM.system (Files.remove path) s.files =
          ((s.files.remove path).1.mapError .fileSystem, s.files.erase path) := by
        rw [Converter.system_run]
        cases found : s.files.find? path with
        | none =>
            have missing : s.files.remove path = (.error .missing, s.files) := by
              unfold Files.remove
              rw [found]
            rw [missing, Files.erase_absent found]
        | some entry =>
            cases entry with
            | directory => exact absurd found (plain path List.mem_cons_self)
            | file f => rw [Files.remove_file found]
      have others : ∀ other ∈ rest, (s.files.erase path).find? other ≠ some .directory := by
        intro other member
        rw [Files.find?_erase]
        split
        · exact fun absent => by cases absent
        · exact plain other (List.mem_cons_of_mem path member)
      calc
        discard (path :: rest) s = discard rest { s with files := s.files.erase path } :=
          bind_ok (bind_ok (attempt_onFiles removed))
        _ = (.ok ⟨⟩, { s with files := s.files.eraseAll (path :: rest) }) :=
          ih { s with files := s.files.erase path } others

/-! ### Receiving -/

theorem writeOctets_run (path : String) (octets : List UInt8) (s : Service) :
    writeOctets path octets s =
      ((s.files.write path (.octets octets)).1.mapError .fileSystem,
        { s with files := (s.files.write path (.octets octets)).2 }) := by
  unfold writeOctets ServiceM.onFiles
  rw [Converter.system_run]

/-- A file under way: new, and not read since its content was written. -/
structure Arrived (path : String) (before after : Files) (octets : List UInt8) : Prop where
  besides : Files.Besides [path] before after
  stands : ∃ f, after.find? path = some (.file f) ∧ f.content = .octets octets ∧
    f.times.accessed ≤ f.times.modified ∧ f.times.modified ≤ after.clock ∧
    f.times.changed ≤ after.clock

/-- Portions are appended one after the other; the file is new all the while. -/
theorem receivePortions_run {a : Files} (timely : a.Timely) (path : String) (limit : Nat)
    (portions : List (List UInt8)) (arrived : List UInt8) (s : Service)
    (begun : Arrived path a s.files arrived) :
    ∃ files, (receivePortions path limit arrived portions s).2 = { s with files } ∧
      Files.Besides [path] a files ∧
      ∀ all, (receivePortions path limit arrived portions s).1 = .ok all →
        all = arrived ++ portions.flatten ∧ Arrived path a files all := by
  induction portions generalizing arrived s with
  | nil =>
      refine ⟨s.files, rfl, begun.besides, ?_⟩
      intro all done
      cases done
      exact ⟨by simp, begun⟩
  | cons portion rest ih =>
      unfold receivePortions
      by_cases tooLarge : limit < (arrived ++ portion).length
      · rw [if_pos tooLarge]
        refine ⟨s.files, rfl, begun.besides, ?_⟩
        intro all done
        cases done
      · rw [if_neg tooLarge]
        obtain ⟨f, stands, _, _⟩ := begun.stands
        have now : f.times.accessed ≤ s.files.clock + 1 :=
          Nat.le_succ_of_le ((begun.besides.timely timely).accessed path f stands)
        let grown : File := { f with
          content := .octets (arrived ++ portion)
          times := { f.times with
            modified := s.files.clock + 1
            changed := s.files.clock + 1 } }
        let files := s.files.tick.put path (.file grown)
        have run : RequestM.ofService (writeOctets path (arrived ++ portion)) s =
            (.ok (), { s with files }) := by
          unfold RequestM.ofService
          rw [writeOctets_run, Files.write_over stands]
          rfl
        have next : Arrived path a files (arrived ++ portion) := by
          constructor
          · exact begun.besides.update (List.mem_singleton_self path) stands rfl (Nat.le_refl _) now
          · exact ⟨grown, by simp [files], rfl, now, Nat.le_refl _, Nat.le_refl _⟩
        dsimp only
        rw [bind_ok run]
        obtain ⟨after, result, besides, complete⟩ := ih (arrived ++ portion) { s with files } next
        refine ⟨after, result, besides, ?_⟩
        intro all done
        obtain ⟨same, held⟩ := complete all done
        exact ⟨by simp [same], held⟩

/-- At first the file under way is empty. -/
theorem arrives_empty (s : Service) {path : String} (absent : s.files.find? path = none)
    (inDirectory : s.files.isDirectory (Files.parent path)) :
    ∃ files, RequestM.ofService (writeOctets path []) s = (.ok (), { s with files }) ∧
      Arrived path s.files files [] := by
  have besides := Files.Besides.write (.octets []) absent
  have written : s.files.write path (.octets []) = _ := Files.write_new absent inDirectory
  rw [written] at besides
  refine ⟨_, ?_, besides, _, by simp; rfl, rfl, Nat.le_refl _, Nat.le_refl _, Nat.le_refl _⟩
  unfold RequestM.ofService
  rw [writeOctets_run, written]
  rfl

/-- Receiving leaves at most a new file, and if it succeeds, one that holds the body. -/
theorem receive_run (s : Service) (timely : s.files.Timely) {path : String}
    (absent : s.files.find? path = none) (body : Stream) (limit : Nat) :
    ∃ files, (receive body path limit s).2 = { s with files } ∧
      Files.Besides [path] s.files files ∧
      ∀ size, (receive body path limit s).1 = .ok size →
        size = body.portions.flatten.length ∧
          Arrived path s.files files body.portions.flatten := by
  unfold receive
  by_cases inDirectory : s.files.isDirectory (Files.parent path)
  · obtain ⟨files, run, arrived⟩ := arrives_empty s absent inDirectory
    rw [bind_ok run]
    obtain ⟨after, result, besides, complete⟩ :=
      receivePortions_run timely path limit body.portions [] { s with files } arrived
    generalize portions : receivePortions path limit [] body.portions { s with files } = outcome
      at result complete
    obtain ⟨received, t⟩ := outcome
    cases result
    refine ⟨after, ?_, besides, ?_⟩
    · cases received with
      | error rejection => rw [bind_error portions]
      | ok arrived =>
          rw [bind_ok portions]
          cases body.broken <;> rfl
    · intro size done
      cases received with
      | error rejection =>
          rw [bind_error portions] at done
          cases done
      | ok arrived =>
          obtain ⟨same, held⟩ := complete arrived rfl
          rw [bind_ok portions] at done
          cases broken : body.broken with
          | some reason =>
              rw [broken] at done
              cases done
          | none =>
              rw [broken] at done
              cases done
              rw [List.nil_append] at same
              rw [same] at held
              exact ⟨by rw [same], held⟩
  · have run : RequestM.ofService (writeOctets path []) s =
        (.error (.failure (.fileSystem .missing)), s) := by
      unfold RequestM.ofService
      rw [writeOctets_run, Files.write_refused absent inDirectory]
      rfl
    rw [bind_error run]
    refine ⟨s.files, rfl, .of_absent s.files absent, ?_⟩
    intro size done
    cases done

/-! ### Checking -/

/-- A file as it is once it has been read. -/
def seen (f : File) (clock : Nat) : File :=
  { f with times := { f.times with accessed := clock + 1 } }

theorem validate_read {s t : Service} {path : String} {octets : List UInt8}
    (read : ServiceM.onFiles (FilesM.system (Files.read path)) s = (.ok (.octets octets), t)) :
    validate path s =
      ((Dump.parse (some s.limits.maxUploadBytes) octets).mapError blameRequest, t) := by
  unfold validate
  rw [bind_ok (get_run s), bind_ok read]
  simp only [Content.asText]
  cases parsed : Dump.parse (some s.limits.maxUploadBytes) octets with
  | error failure =>
      have none : (Except.ok octets).bind (Dump.parse (some s.limits.maxUploadBytes)) =
        .error failure := parsed
      rw [none]
      rfl
  | ok dump =>
      have some : (Except.ok octets).bind (Dump.parse (some s.limits.maxUploadBytes)) =
        .ok dump := parsed
      rw [some]
      rfl

theorem validate_file {s : Service} {path : String} {octets : List UInt8} {f : File}
    (stands : s.files.find? path = some (.file f)) (content : f.content = .octets octets)
    (unread : f.times.accessed ≤ f.times.modified) :
    validate path s =
      ((Dump.parse (some s.limits.maxUploadBytes) octets).mapError blameRequest,
        { s with files := s.files.tick.put path (.file (seen f s.files.clock)) }) := by
  apply validate_read
  unfold ServiceM.onFiles
  rw [Converter.system_run, Files.read_file stands, Files.touchRead_written stands unread,
    ← content]
  rfl

/-- Checking a file that has not been read marks it as read. -/
theorem validate_run {a : Files} (timely : a.Timely) {path : String} {octets : List UInt8}
    (s : Service) (arrived : Arrived path a s.files octets) :
    ∃ files f, validate path s =
        ((Dump.parse (some s.limits.maxUploadBytes) octets).mapError blameRequest,
          { s with files }) ∧
      Files.Besides [path] a files ∧ files.find? path = some (.file f) ∧
      f.content = .octets octets ∧ f.times.WasRead := by
  obtain ⟨f, stands, content, unread, modified, changed⟩ := arrived.stands
  have now := Nat.le_succ_of_le ((arrived.besides.timely timely).accessed path f stands)
  refine ⟨_, seen f s.files.clock, validate_file stands content unread, ?_, ?_, content, ?_⟩
  · exact arrived.besides.update (List.mem_singleton_self path) stands rfl now (Nat.le_refl _)
  · simp
  · exact ⟨Nat.lt_succ_of_le modified, Nat.lt_succ_of_le changed⟩

/-! ### Converting -/

/-- The temporary files for some encodings, the first of which has the number given. -/
def outputs (root : String) : Nat → List Encoding → List (Encoding × String)
  | _, [] => []
  | number, kind :: rest =>
    (kind, temporaryFile root number kind) :: outputs root (number + 1) rest

theorem mem_outputs {root : String} {number : Nat} {kinds : List Encoding}
    {made : Encoding × String}
    (listed : made ∈ outputs root number kinds) :
    ∃ k, number ≤ k ∧ k < number + kinds.length ∧ made.2 = temporaryFile root k made.1 := by
  induction kinds generalizing number with
  | nil => cases listed
  | cons kind rest ih =>
      rcases List.mem_cons.mp listed with rfl | later
      · exact ⟨number, Nat.le_refl _, by simp, rfl⟩
      · obtain ⟨k, low, high, same⟩ := ih later
        refine ⟨k, by omega, ?_, same⟩
        rw [List.length_cons]
        omega

/-- A temporary file whose number was not given out is no output. -/
theorem temporaryFile_not_output {root : String} {number start : Nat} {kind : Encoding}
    {kinds : List Encoding} (outside : number < start ∨ start + kinds.length ≤ number) :
    temporaryFile root number kind ∉ (outputs root start kinds).map (·.2) := by
  intro listed
  obtain ⟨p, member, same⟩ := List.mem_map.mp listed
  obtain ⟨k, low, high, named⟩ := mem_outputs member
  rw [named] at same
  have numbers := (Service.temporaryFile_inj same).1
  omega

theorem map_fst_outputs (root : String) (number : Nat) (kinds : List Encoding) :
    (outputs root number kinds).map (·.1) = kinds := by
  induction kinds generalizing number with
  | nil => rfl
  | cons kind rest ih => exact congrArg (kind :: ·) (ih (number + 1))

/-- Conversions of one file that succeed, one after the other. -/
inductive Conversions (converter : Converter) (input : String) :
    List (Encoding × String) → Files → Files → Prop where
  | done (files : Files) : Conversions converter input [] files files
  | next {kind : Encoding} {output : String} {rest : List (Encoding × String)} {a b c : Files}
      (converted : converter input output kind a = (.ok (), b))
      (others : Conversions converter input rest b c) :
      Conversions converter input ((kind, output) :: rest) a c

/-- What converting comes to: all outputs are made, or none is left. -/
inductive ConvertedAll (input : String) (made : List (Encoding × String)) (kinds : List Encoding)
    (s : Service) : Except Failure (List (Encoding × String)) × Service → Prop where
  | ok (files : Files)
      (besides : Files.Besides ((outputs s.root s.temporaries kinds).map (·.2)) s.files files)
      (conversions :
        Conversions s.converter input (outputs s.root s.temporaries kinds) s.files files) :
      ConvertedAll input made kinds s
        (.ok (made.reverse ++ outputs s.root s.temporaries kinds),
          { s with files, temporaries := s.temporaries + kinds.length })
  | failed (failure : Failure) (tried : List Encoding) (files : Files)
      (besides : Files.Besides ((outputs s.root s.temporaries tried).map (·.2)) s.files files) :
      ConvertedAll input made kinds s
        (.error failure,
          { s with
            files := files.eraseAll
              ((made.reverse ++ outputs s.root s.temporaries tried).map (·.2))
            temporaries := s.temporaries + tried.length })

/-- A conversion that succeeds is followed by the others. -/
theorem convertAll_next {input : String} {kind : Encoding} {rest : List Encoding}
    {made : List (Encoding × String)} {s : Service} {done : Unit} {files : Files}
    (converted : s.converter input (temporaryFile s.root s.temporaries kind) kind s.files =
      (.ok done, files)) :
    convertAll input made (kind :: rest) s =
      convertAll input ((kind, temporaryFile s.root s.temporaries kind) :: made) rest
        { s with files, temporaries := s.temporaries + 1 } := by
  let named : Service := { s with temporaries := s.temporaries + 1 }
  calc
    convertAll input made (kind :: rest) s = _ := bind_ok (temporaryPath_run kind s)
    _ = _ := bind_ok (get_run named)
    _ = _ := bind_ok (@attempt_onFiles _ named _ _ converted)

/-- A conversion that fails is the last one, and all outputs are discarded. -/
theorem convertAll_failed {input : String} {kind : Encoding} {rest : List Encoding}
    {made : List (Encoding × String)} {s : Service} {failure : Failure} {files : Files}
    (converted : s.converter input (temporaryFile s.root s.temporaries kind) kind s.files =
      (.error failure, files))
    (plain : ∀ p ∈ made ++ outputs s.root s.temporaries [kind],
      files.find? p.2 ≠ some .directory) :
    convertAll input made (kind :: rest) s =
      (.error failure,
        { s with
          files := files.eraseAll ((made.reverse ++ outputs s.root s.temporaries [kind]).map (·.2))
          temporaries := s.temporaries + 1 }) := by
  let output := temporaryFile s.root s.temporaries kind
  let named : Service := { s with temporaries := s.temporaries + 1 }
  have attempted : ServiceM.attempt (ServiceM.onFiles (named.converter input output kind)) named =
      (.ok (.error failure), { named with files }) := attempt_onFiles converted
  have stale : made.reverse.map (·.2) ++ [output] =
      (made.reverse ++ outputs s.root s.temporaries [kind]).map (·.2) := by
    rw [List.map_append]
    rfl
  have discarded : discard (made.reverse.map (·.2) ++ [output]) { named with files } = _ :=
    discard_run { named with files } fun path listed => by
      rw [stale] at listed
      obtain ⟨p, among, rfl⟩ := List.mem_map.mp listed
      exact plain p (by simpa using among)
  rw [stale] at discarded
  unfold convertAll
  rw [bind_ok (temporaryPath_run kind s), bind_ok (get_run named), bind_ok attempted]
  dsimp only
  rw [stale, bind_ok discarded]
  rfl

/-- Encodings are converted to one after the other. If one fails, nothing that was made stays. -/
theorem convertAll_run {input : String} {f : File} (read : f.times.WasRead) (kinds : List Encoding)
    (made : List (Encoding × String)) (s : Service) (confined : s.converter.Confined)
    (stands : s.files.find? input = some (.file f))
    (plain : ∀ p ∈ made, s.files.find? p.2 ≠ some .directory)
    (fresh : ∀ number kind, s.temporaries ≤ number →
      s.files.find? (temporaryFile s.root number kind) = none) :
    ConvertedAll input made kinds s (convertAll input made kinds s) := by
  induction kinds generalizing made s with
  | nil =>
      have run : convertAll input made [] s = (.ok (made.reverse ++ []), s) := by
        rw [List.append_nil]
        rfl
      rw [run]
      exact .ok s.files (.refl s.files) (.done s.files)
  | cons kind rest ih =>
      let output := temporaryFile s.root s.temporaries kind
      have absent : s.files.find? output = none := fresh s.temporaries kind (Nat.le_refl _)
      have besides := confined input output kind s.files f stands read absent
      generalize converted : s.converter input output kind s.files = result at besides
      obtain ⟨outcome, files⟩ := result
      have here : ∀ p ∈ (kind, output) :: made, files.find? p.2 ≠ some .directory := by
        intro p listed
        rcases List.mem_cons.mp listed with rfl | old
        · exact besides.plain (.inl List.mem_cons_self)
        · exact besides.plain (.inr (plain p old))
      cases outcome with
      | error failure =>
          rw [convertAll_failed converted fun p listed =>
            here p (by simpa [outputs, output, or_comm] using listed)]
          exact .failed failure [kind] files besides
      | ok done =>
          let next : Service := { s with files, temporaries := s.temporaries + 1 }
          have standsStill : files.find? input = some (.file f) := by
            rw [besides.elsewhere, stands]
            rintro rfl
            rw [absent] at stands
            cases stands
          have freshStill : ∀ number kind, s.temporaries + 1 ≤ number →
              files.find? (temporaryFile s.root number kind) = none := by
            intro number other later
            rw [besides.elsewhere]
            · exact fresh number other (Nat.le_of_succ_le later)
            · intro same
              have numbers := (Service.temporaryFile_inj same).1
              omega
          -- The outputs made so far stand reversed, so that all of them are in order at the end.
          have all (more : List Encoding) :
              ((kind, output) :: made).reverse ++ outputs s.root (s.temporaries + 1) more =
                made.reverse ++ outputs s.root s.temporaries (kind :: more) := by
            simp [outputs, output]
          have count (more : List Encoding) :
              next.temporaries + more.length = s.temporaries + (kind :: more).length := by
            rw [List.length_cons, Nat.add_comm more.length, ← Nat.add_assoc]
          have later := ih ((kind, output) :: made) next confined standsStill here freshStill
          rw [convertAll_next converted]
          generalize convertAll input ((kind, output) :: made) rest next = result at later
          cases later with
          | ok last besidesRest conversions =>
              rw [all, count]
              exact .ok last (besides.trans besidesRest) (.next converted conversions)
          | failed failure tried last besidesRest =>
              rw [all, count]
              exact .failed failure (kind :: tried) last (besides.trans besidesRest)

/-! ### Preparing -/

theorem length_outputs (root : String) (number : Nat) (kinds : List Encoding) :
    (outputs root number kinds).length = kinds.length := by
  rw [← List.length_map, map_fst_outputs]

/-- The temporary files for all that an upload is converted to. -/
def allOutputs (s : Service) : List (Encoding × String) :=
  outputs s.root s.temporaries (s.flags.enabled.filter (· ≠ .json))

/-- The tree once an upload is ready to be moved into place: the dump as it was received, and its
conversions, beside the files of old. -/
structure Ready (staged : String) (octets : List UInt8) (before : Files) (s : Service)
    (after : Files) : Prop where
  besides : Files.Besides (staged :: (allOutputs s).map (·.2)) before after
  conversions : ∃ seen f, Files.Besides [staged] before seen ∧
    seen.find? staged = some (.file f) ∧ f.content = .octets octets ∧ f.times.WasRead ∧
    Conversions s.converter staged (allOutputs s) seen after

/-- What preparing comes to: an upload is ready, or at most the file received is left. -/
inductive Prepared (staged : String) (octets : List UInt8) (before : Files) (s : Service) :
    Except Failure (Dump × List (Encoding × String)) × Service → Prop where
  | ok (dump : Dump) (files : Files)
      (parsed : Dump.parse (some s.limits.maxUploadBytes) octets = .ok dump)
      (ready : Ready staged octets before s files) :
      Prepared staged octets before s
        (.ok (dump, allOutputs s),
          { s with files, temporaries := s.temporaries + (allOutputs s).length })
  | failed (failure : Failure) (files : Files) (number : Nat)
      (besides : Files.Besides [staged] before files) :
      Prepared staged octets before s
        (.error failure, { s with files, temporaries := s.temporaries + number })

/-- A file that has arrived is checked and converted, and no conversion stays if one fails. -/
theorem prepare_run {before : Files} (timely : before.Timely) {staged : String}
    {octets : List UInt8} (s : Service) (arrived : Arrived staged before s.files octets)
    (confined : s.converter.Confined)
    (fresh : ∀ number kind, s.temporaries ≤ number →
      s.files.find? (temporaryFile s.root number kind) = none) :
    Prepared staged octets before s (prepare staged s) := by
  obtain ⟨seen, f, checked, besides, stands, content, read⟩ := validate_run timely s arrived
  let kinds := s.flags.enabled.filter (· ≠ .json)
  cases parsed : Dump.parse (some s.limits.maxUploadBytes) octets with
  | error failure =>
      rw [parsed] at checked
      have run : prepare staged s = (.error (blameRequest failure), { s with files := seen }) :=
        bind_error checked
      rw [run]
      exact .failed (blameRequest failure) seen 0 besides
  | ok dump =>
      rw [parsed] at checked
      have free : ∀ number kind, s.temporaries ≤ number →
          seen.find? (temporaryFile s.root number kind) = none := by
        intro number kind later
        have differs : temporaryFile s.root number kind ≠ staged := by
          intro same
          obtain ⟨g, there, _⟩ := arrived.stands
          rw [← same, fresh number kind later] at there
          cases there
        have outside : temporaryFile s.root number kind ∉ [staged] := by simpa using differs
        rw [besides.others _ outside, ← arrived.besides.others _ outside]
        exact fresh number kind later
      have converting := convertAll_run read kinds [] { s with files := seen } confined stands
        (fun p listed => by cases listed) free
      have run : prepare staged s = (do
          let converted ← convertAll staged [] kinds
          return (dump, converted) : ServiceM _) { s with files := seen } := bind_ok checked
      rw [run]
      generalize all : convertAll staged [] kinds { s with files := seen } = result at converting
      cases converting with
      | ok files besidesAll conversions =>
          rw [bind_ok all, pure_run, ← length_outputs s.root s.temporaries kinds]
          exact .ok dump files parsed
            ⟨besides.trans besidesAll, seen, f, besides, stands, content, read, conversions⟩
      | failed failure tried files besidesTried =>
          rw [bind_error all]
          refine .failed failure _ tried.length ((besides.trans besidesTried).erased ?_)
          intro path listed outside
          obtain ⟨made, member, rfl⟩ := List.mem_map.mp listed
          obtain ⟨number, low, _, named⟩ := mem_outputs member
          rw [← besides.others _ outside, named]
          exact free number made.1 low

end CodeNav.Upload
