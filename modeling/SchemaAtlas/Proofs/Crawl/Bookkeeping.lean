import SchemaAtlas.Proofs.Crawl.Moves
import SchemaAtlas.Proofs.Index.History

/-!
# What a crawl writes down

Whatever its options are and however it ends, a crawl takes up no path twice, and what it has
written down is determined by the paths that it has taken up: its files are those that can be read,
and the schema records and the assembled text come from those of them that have no syntax errors.

* `Kept.of_run`   the bookkeeping of a whole crawl
* `Scan.of_mem_documentRecords`   the documents of clients add no file and no schema record
* `Scan.files_ofRecords_append`, `Scan.filter_isSchema_append`   what a whole scan keeps of it
-/

namespace SchemaAtlas

open Projection (SchemaFile)

/-- The text of a file, if it can be read. -/
def Source.text? (source : Source) (p : FilePath) : Option String :=
  (source.read p).toOption

/-- A file that can be read and has no syntax errors. -/
def Source.soundFile? (source : Source) (p : FilePath) : Option SchemaFile :=
  (source.text? p).bind fun text =>
    if (Document.ofText text).isSound then some (SchemaFile.read p text) else none

/-- The files without syntax errors among those at some paths. -/
def Source.soundFiles (source : Source) (paths : List FilePath) : List SchemaFile :=
  paths.filterMap source.soundFile?

/-- Paths that cannot be read hold no sound files. -/
theorem Source.soundFiles_filter (source : Source) (paths : List FilePath) :
    source.soundFiles (paths.filter fun p => (source.text? p).isSome) =
      source.soundFiles paths := by
  rw [soundFiles, List.filterMap_filter, soundFiles]
  congr 1
  funext p
  cases h : source.text? p <;> simp [soundFile?, h]

/-- A file with a text can be read. -/
theorem Source.read_of_text? {source : Source} {p : FilePath} {text : String}
    (h : source.text? p = some text) : source.read p = .ok text := by
  unfold text? at h
  cases hread : source.read p with
  | ok other =>
    rw [hread] at h
    obtain rfl := Option.some.inj h
    rfl
  | error reason =>
    rw [hread] at h
    cases h

/-- A file that can be read has the text that is read. -/
theorem Source.text?_of_read {source : Source} {p : FilePath} {text : String}
    (h : source.read p = .ok text) : source.text? p = some text := by
  rw [text?, h]
  rfl

/-- A file that cannot be read has no text. -/
theorem Source.text?_of_error {source : Source} {p : FilePath} {reason : String}
    (h : source.read p = .error reason) : source.text? p = none := by
  rw [text?, h]
  rfl

/-- A sound file is read from a text without syntax errors. -/
theorem Source.exists_text_of_mem_soundFiles {source : Source} {paths : List FilePath}
    {file : SchemaFile} (h : file ∈ source.soundFiles paths) :
    ∃ p ∈ paths, ∃ text, source.text? p = some text ∧ (Document.ofText text).isSound = true ∧
      file = SchemaFile.read p text := by
  obtain ⟨p, hmem, hp⟩ := List.mem_filterMap.1 h
  obtain ⟨text, htext, hfile⟩ := Option.bind_eq_some_iff.1 hp
  split at hfile
  · next hsound =>
    obtain rfl := Option.some.inj hfile
    exact ⟨p, hmem, text, htext, hsound, rfl⟩
  · cases hfile

/-! ## Contributions -/

/-- A text without syntax errors contributes what is projected from it, and the includes of its
tree. -/
theorem contribution_of_sound {text : String} (path : FilePath)
    (h : (Document.ofText text).isSound = true) :
    contribution path text =
      { records := Projection.records (SchemaFile.read path text)
        includes := Wiring.includes (Document.ofText text)
        sound := true } := by
  have hfault : (Document.ofText text).fault = none := by simpa [Document.isSound] using h
  simp [contribution, SchemaFile.read, hfault]

/-- A text with syntax errors contributes one diagnostic, and the includes that are recovered from
it. -/
theorem contribution_of_fault {text : String} (path : FilePath)
    (h : (Document.ofText text).isSound = false) :
    ∃ offset, contribution path text =
      { records :=
          [.diagnostic { path, kind := .parse, message := syntaxErrorMessage text offset }]
        includes := Wiring.recoveredIncludes text
        sound := false } := by
  obtain ⟨offset, hfault⟩ := Option.isSome_iff_exists.1 (by simpa [Document.isSound] using h)
  exact ⟨offset, by simp [contribution, SchemaFile.read, hfault]⟩

/-- The symbols of a file are schema records. -/
theorem isSchema_of_mem_symbols {file : SchemaFile} {r : Record}
    (h : r ∈ Projection.symbols file) : r.isSchema = true := by
  obtain ⟨declaration, -, hr⟩ := List.mem_flatMap.1 h
  rcases List.mem_cons.1 hr with rfl | hr
  · rfl
  · obtain ⟨field, -, rfl⟩ := List.mem_map.1 hr
    rfl

/-- What a field adds to the model belongs to it. -/
theorem isModel_of_mem_modelOfField {file : SchemaFile} {type : String} {field : Field}
    {r : Record} (h : r ∈ Projection.modelOfField file type field) : r.isModel = true := by
  unfold Projection.modelOfField at h
  split at h
  · simp at h
  · simp only [List.mem_append, List.mem_singleton] at h
    rcases h with (h | h) | rfl
    · split at h <;> simp_all [Record.isModel]
    · split at h <;> simp_all [Record.isModel]
    · rfl

/-- The model of a file declares no symbols. -/
theorem isModel_of_mem_model {file : SchemaFile} {r : Record} (h : r ∈ Projection.model file) :
    r.isModel = true := by
  obtain ⟨declaration, -, hr⟩ := List.mem_flatMap.1 h
  unfold Projection.modelOfType at hr
  split at hr
  · rcases List.mem_cons.1 hr with rfl | hr
    · rfl
    · obtain ⟨field, -, hr⟩ := List.mem_flatMap.1 hr
      exact isModel_of_mem_modelOfField hr
  · simp at hr

/-- A schema file without syntax errors adds schema records only. -/
theorem isSchema_of_mem_records {file : SchemaFile} {r : Record}
    (h : r ∈ Projection.records file) : r.isSchema = true := by
  rcases List.mem_append.1 h with h | h
  · exact isSchema_of_mem_symbols h
  · exact Record.isSchema_of_isModel (isModel_of_mem_model h)

/-- What a file that can be read adds to the files, to the schema records and to the assembled
text. -/
theorem contribution_of_read {source : Source} {path : FilePath} {text : String}
    (h : source.read path = .ok text) :
    (contribution path text).records.filterMap Record.file? = [] ∧
      (contribution path text).records.filter Record.isSchema =
        (source.soundFile? path).toList.flatMap Projection.records ∧
      (if (contribution path text).sound then text ++ "\n" else "") =
        String.join ((source.soundFile? path).toList.map fun file => file.text ++ "\n") := by
  have htext : source.text? path = some text := Source.text?_of_read h
  cases hsound : (Document.ofText text).isSound with
  | true =>
    have hfile : source.soundFile? path = some (SchemaFile.read path text) := by
      simp [Source.soundFile?, htext, hsound]
    -- a sound file adds schema records, and no file besides itself
    have hschema : ∀ r ∈ Projection.records (SchemaFile.read path text), r.isSchema = true :=
      fun r hr => isSchema_of_mem_records hr
    rw [contribution_of_sound path hsound, hfile]
    refine ⟨List.filterMap_eq_nil_iff.2 fun r hr => ?_, ?_, ?_⟩
    · have := hschema r hr
      cases r <;> simp_all [Record.isSchema, Record.file?]
    · simp [List.filter_eq_self.2 hschema]
    · simp [SchemaFile.read]
  | false =>
    have hfile : source.soundFile? path = none := by simp [Source.soundFile?, htext, hsound]
    obtain ⟨offset, hcontribution⟩ := contribution_of_fault path hsound
    rw [hcontribution, hfile]
    exact ⟨rfl, rfl, rfl⟩

/-! ## The bookkeeping of a crawl -/

namespace Crawl

variable {source : Source} {entry : FilePath} {maxFiles cancelAfter : Option Nat}

/-- An include reports one diagnostic at most. -/
theorem missing_eq_nil_or (source : Source) (visited : List FilePath) (file : FilePath)
    (included : String) :
    missing source visited file included = [] ∨
      ∃ diagnostic, missing source visited file included = [.diagnostic diagnostic] := by
  unfold missing
  split
  · exact .inl rfl
  · exact .inr ⟨_, rfl⟩

/-- What the includes of a file report are diagnostics. -/
theorem of_mem_flatMap_missing {visited : List FilePath} {file : FilePath} {includes : List String}
    {r : Record} (h : r ∈ includes.flatMap (missing source visited file)) :
    ∃ diagnostic, r = .diagnostic diagnostic := by
  obtain ⟨included, -, hr⟩ := List.mem_flatMap.1 h
  rcases missing_eq_nil_or source visited file included with hnil | ⟨diagnostic, heq⟩
  · simp [hnil] at hr
  · exact ⟨diagnostic, by simpa [heq] using hr⟩

/-- What a crawl has written down, as far as the paths that it has taken up determine it. -/
structure Kept (c : Crawl source) : Prop where
  /-- No path was taken up twice. -/
  nodup : c.visited.Nodup
  /-- The paths that were taken up are normal. -/
  isNormal : ∀ p ∈ c.visited, p.IsNormal
  /-- The files are the paths that could be read. -/
  files : c.records.filterMap Record.file? = c.visited.filter fun p => (source.text? p).isSome
  /-- The schema records are those of the sound files. -/
  schema : c.records.filter Record.isSchema =
    (source.soundFiles c.visited).flatMap Projection.records
  /-- The assembled text is the texts of the sound files. -/
  assembled : c.assembled =
    String.join ((source.soundFiles c.visited).map fun file => file.text ++ "\n")

/-- Before its first step a crawl has nothing to keep. -/
theorem kept_start (target : Target source) : (start target).Kept where
  nodup := List.nodup_nil
  isNormal := by simp [start]
  files := rfl
  schema := rfl
  assembled := rfl

/-- A path that was not taken up before is not taken up twice. -/
theorem nodup_concat {visited : List FilePath} {p : FilePath} (h : visited.Nodup)
    (hnew : p ∉ visited) : (visited ++ [p]).Nodup := by
  refine List.nodup_append.2 ⟨h, by simp, ?_⟩
  rintro q hq q' hq' rfl
  rw [List.mem_singleton] at hq'
  exact hnew (hq' ▸ hq)

/-- A target of a crawl is normal, like the paths that were taken up before it. -/
theorem isNormal_concat {visited : List FilePath} (h : ∀ p ∈ visited, p.IsNormal)
    (path : Target source) : ∀ p ∈ visited ++ [path.1], p.IsNormal := by
  simp only [List.mem_append, List.mem_singleton]
  rintro p (hp | rfl)
  · exact h p hp
  · exact path.2.1

/-- What waits on the stack is not in the books. -/
theorem Kept.withStack {c : Crawl source} (hc : c.Kept) (stack : List (Target source)) :
    ({ c with stack } : Crawl source).Kept :=
  ⟨hc.nodup, hc.isNormal, hc.files, hc.schema, hc.assembled⟩

/-- A diagnostic is no file and no part of the schema. -/
theorem Kept.report {c : Crawl source} (hc : c.Kept) (path : FilePath) (kind : DiagnosticKind)
    (message : String) : (c.report path kind message).Kept where
  nodup := hc.nodup
  isNormal := hc.isNormal
  files := by simp [Crawl.report, hc.files, Record.file?]
  schema := by simp [Crawl.report, hc.schema, Record.isSchema]
  assembled := hc.assembled

/-- A path that cannot be read is one more path taken up, and nothing else. -/
theorem Kept.mark_of_error {c : Crawl source} (hc : c.Kept) {path : Target source}
    {reason : String} (hnew : path.1 ∉ c.visited) (hread : source.read path = .error reason) :
    (c.mark path).Kept := by
  have htext : source.text? path = none := Source.text?_of_error hread
  have hsound : source.soundFile? path = none := by rw [Source.soundFile?, htext]; rfl
  exact
    { nodup := nodup_concat hc.nodup hnew
      isNormal := isNormal_concat hc.isNormal path
      files := by simp [mark, hc.files, htext]
      schema := by simp [mark, hc.schema, Source.soundFiles, hsound]
      assembled := by simp [mark, hc.assembled, Source.soundFiles, hsound] }

/-- Every step keeps the books. -/
theorem Kept.goes {c c' : Crawl source} (hc : c.Kept) (h : Goes entry maxFiles c c') : c'.Kept := by
  -- only a path that is taken up changes the books, whether or not it can be read
  cases h with
  | again hstack hold => exact hc.withStack _
  | @unreadable path rest reason hstack hnew hlimit hread hne =>
    exact ((hc.withStack rest).mark_of_error hnew hread).report ..
  | @read path rest text hstack hnew hlimit hread =>
    have htext : source.text? path = some text := Source.text?_of_read hread
    obtain ⟨hfiles, hschema, hassembled⟩ := contribution_of_read hread
    -- what is missing is reported, and that is all
    have hmissing : ∀ r ∈ (contribution path text).includes.flatMap
        (missing source (c.visited ++ [path.1]) path), r.isSchema = false ∧ r.file? = none := by
      intro r hr
      obtain ⟨diagnostic, rfl⟩ := of_mem_flatMap_missing hr
      exact ⟨rfl, rfl⟩
    have hmissingSchema : ((contribution path text).includes.flatMap
        (missing source (c.visited ++ [path.1]) path)).filter Record.isSchema = [] :=
      List.filter_eq_nil_iff.2 fun r hr => by simp [(hmissing r hr).1]
    have hmissingFiles : ((contribution path text).includes.flatMap
        (missing source (c.visited ++ [path.1]) path)).filterMap Record.file? = [] :=
      List.filterMap_eq_nil_iff.2 fun r hr => (hmissing r hr).2
    rw [addFile_eq]
    exact
      { nodup := nodup_concat hc.nodup hnew
        isNormal := isNormal_concat hc.isNormal path
        files := by
          simp only [mark, List.filterMap_append, List.filterMap_cons, hc.files, hfiles,
            hmissingFiles]
          simp [Record.file?, htext]
        schema := by
          simp only [mark, List.filter_append, List.filter_cons, hc.schema, hschema,
            hmissingSchema]
          cases hfile : source.soundFile? path <;> simp [Record.isSchema, Source.soundFiles, hfile]
        assembled := by
          -- the assembled text grows only if the file is sound
          have happend : (if (contribution path text).sound then c.assembled ++ text ++ "\n"
              else c.assembled) =
              c.assembled ++ if (contribution path text).sound then text ++ "\n" else "" := by
            split <;> simp [String.append_assoc]
          refine happend.trans ?_
          show _ = String.join
            ((source.soundFiles (c.visited ++ [path.1])).map fun file => file.text ++ "\n")
          rw [hassembled, hc.assembled]
          cases hfile : source.soundFile? path <;> simp [Source.soundFiles, hfile] }

/-- The end of a crawl keeps the books as well. -/
theorem Kept.ends {c c' : Crawl source} {failure : Option ScanError} (hc : c.Kept)
    (h : Ends entry maxFiles cancelAfter c c' failure) : c'.Kept := by
  -- a crawl that ends writes down one diagnostic at most
  cases h with
  | finished hstack => exact hc
  | cancelled hstack hcancel => exact hc
  | limited hstack hnew hlimit => exact (hc.withStack _).report ..
  | @unreadable path rest reason hstack hnew hread heq =>
    exact (hc.withStack rest).mark_of_error hnew hread

/-- A crawl keeps its books from the start to the end. -/
theorem Kept.of_run {target : Target source} {c : Crawl source} {failure : Option ScanError}
    (h : (start target).run entry maxFiles cancelAfter = (c, failure)) : c.Kept :=
  holds_of_run (kept_start target) (fun _ _ hc hgoes => hc.goes hgoes)
    (fun _ _ _ hc hends => hc.ends hends) h

end Crawl

/-! ## The documents that clients run -/

/-- The records of a document that clients run are operations, persisted documents and
diagnostics. -/
theorem ClientDocuments.of_mem_records {source : Source} {root : FilePath} {assembled : String}
    {r : Record} (h : r ∈ ClientDocuments.records source root assembled) :
    r.isSchema = false ∧ r.file? = none := by
  obtain ⟨⟨path, persist⟩, -, hr⟩ := List.mem_flatMap.1 h
  simp only [recordsOf] at hr
  split at hr
  · split at hr
    · simp only [recordsOfText] at hr
      split at hr
      · simp_all [Record.isSchema, Record.file?]
      · split at hr <;> simp at hr <;> rcases hr with rfl | rfl <;> exact ⟨rfl, rfl⟩
    · simp_all [Record.isSchema, Record.file?]
  · simp_all [Record.isSchema, Record.file?]

/-- The documents of clients add no file and no schema record, if they are looked at. -/
theorem Scan.of_mem_documentRecords {source : Source} {options : ScanOptions} {entry : FilePath}
    {assembled : String} {r : Record} (h : r ∈ documentRecords source options entry assembled) :
    r.isSchema = false ∧ r.file? = none := by
  unfold documentRecords at h
  split at h
  · exact ClientDocuments.of_mem_records h
  · simp at h

/-- A scan that succeeds puts the documents of clients behind what a crawl has kept. -/
theorem Scan.exists_kept_of_ok {source : Source} {options : ScanOptions} {entry : FilePath}
    {cancelAfter : Option Nat} {s : Snapshot}
    (hok : (run source options entry cancelAfter).result = .ok s) :
    ∃ c : Crawl source, c.Kept ∧ s = Snapshot.ofRecords
      (c.records ++ documentRecords source options entry.normalize c.assembled) := by
  obtain ⟨h, c, hrun, hs⟩ := exists_crawl_of_ok hok
  exact ⟨c, .of_run hrun, hs⟩

/-- The files of a scan are those that its crawl took up and could read. -/
theorem Scan.files_ofRecords_append {source : Source} (options : ScanOptions) (entry : FilePath)
    {c : Crawl source} (hc : c.Kept) :
    (Snapshot.ofRecords (c.records ++ documentRecords source options entry c.assembled)).files =
      c.visited.filter fun p => (source.text? p).isSome := by
  have hnone : (documentRecords source options entry c.assembled).filterMap Record.file? = [] :=
    List.filterMap_eq_nil_iff.2 fun r hr => (of_mem_documentRecords hr).2
  rw [Snapshot.files_ofRecords, List.filterMap_append, hc.files, hnone, List.append_nil]

/-- The schema records of a scan are those of the sound files that its crawl took up. -/
theorem Scan.filter_isSchema_append {source : Source} (options : ScanOptions) (entry : FilePath)
    {c : Crawl source} (hc : c.Kept) :
    (c.records ++ documentRecords source options entry c.assembled).filter Record.isSchema =
      (source.soundFiles c.visited).flatMap Projection.records := by
  have hnone : (documentRecords source options entry c.assembled).filter Record.isSchema = [] :=
    List.filter_eq_nil_iff.2 fun r hr => by simp [(of_mem_documentRecords hr).1]
  rw [List.filter_append, hc.schema, hnone, List.append_nil]

end SchemaAtlas
