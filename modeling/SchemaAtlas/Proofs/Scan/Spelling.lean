import Mathlib.Data.List.Induction
import SchemaAtlas.Project.Course
import SchemaAtlas.Proofs.Crawl.Agreement
import SchemaAtlas.Proofs.ClientDocuments.Accounts
import SchemaAtlas.Proofs.FilePath.Joining

/-!
# One spelling for every file

Every path is brought into its normal form before it is kept or looked up. So files in memory are
kept under normal paths, and it makes no difference by which spelling a file was put there, removed
or asked for; and whatever happens to the files while a scan is under way, the scan asks for normal
paths only.

* `MemoryFiles.text?_after`   what files in memory hold, by the last change at a place
* `Course.look_eq_of_agree`   a look at the files learns of one path at most
* `Course.isNormal_next`      what a course asks for next, and goes on with, is normal
* `FilePath.normalize_settles`   both, with what they rest on
-/

namespace SchemaAtlas

/-! ## Files in memory -/

namespace MemoryFiles

/-- A change of files in memory. -/
inductive Edit where
  | insert (path : FilePath) (text : String)
  | remove (path : FilePath)

/-- The path of a change as it is spelled. -/
def Edit.path : Edit → FilePath
  | .insert path _ => path
  | .remove path => path

/-- The text that a change leaves at its path. -/
def Edit.text? : Edit → Option String
  | .insert _ text => some text
  | .remove _ => none

/-- The same change, where the path is spelled in another way. -/
def Edit.Respells (edit other : Edit) : Prop :=
  edit.path.normalize = other.path.normalize ∧ edit.text? = other.text?

/-- Files behind a change. -/
def Edit.apply (files : MemoryFiles) : Edit → MemoryFiles
  | .insert path text => files.insert path text
  | .remove path => files.remove path

/-- What changes make of no files. -/
def after (edits : List Edit) : MemoryFiles :=
  edits.foldl Edit.apply .empty

/-- The last change is made behind all others. -/
theorem after_concat (edits : List Edit) (edit : Edit) :
    after (edits ++ [edit]) = edit.apply (after edits) :=
  List.foldl_concat ..

/-- The paths under which files are kept. -/
def keys (files : MemoryFiles) : List FilePath :=
  files.texts.map Prod.fst

/-- The text that is kept under a path. -/
def kept? (files : MemoryFiles) (key : FilePath) : Option String :=
  (files.texts.find? (·.1 == key)).map Prod.snd

variable {files : MemoryFiles} {p : FilePath}

/-- A change keeps files under normal paths. -/
theorem isNormal_of_mem_keys_apply {edit : Edit} (h : ∀ key ∈ files.keys, key.IsNormal) :
    ∀ key ∈ (edit.apply files).keys, key.IsNormal := by
  -- what a change leaves was there before
  have hkept : ∀ key ∈ (files.texts.filter (·.1 != edit.path.normalize)).map Prod.fst,
      key.IsNormal := by
    intro key hkey
    obtain ⟨entry, hentry, rfl⟩ := List.mem_map.1 hkey
    exact h _ (List.mem_map_of_mem (List.mem_filter.1 hentry).1)
  cases edit with
  | insert path text =>
    intro key hkey
    rcases List.mem_cons.1 hkey with rfl | hkey
    · exact FilePath.isNormal_normalize path
    · exact hkept key hkey
  | remove path => exact hkept

/-- A change makes no file unreadable. -/
theorem unreadable_apply (files : MemoryFiles) (edit : Edit) :
    (edit.apply files).unreadable = files.unreadable := by
  cases edit <;> rfl

/-- A change says what is kept at its place, and leaves all others as they are. -/
theorem kept?_apply (files : MemoryFiles) (edit : Edit) (key : FilePath) :
    (edit.apply files).kept? key =
      if edit.path.normalize = key then edit.text? else files.kept? key := by
  -- the change first drops what was kept under the path
  have hkept : ((files.texts.filter (·.1 != edit.path.normalize)).find? (·.1 == key)) =
      if edit.path.normalize = key then none else files.texts.find? (·.1 == key) := by
    rw [List.find?_filter]
    split
    · next heq => simp [heq]
    · next hne =>
      congr 1
      funext entry
      by_cases hkey : entry.1 = key
      · simp [hkey, Ne.symm hne]
      · simp [hkey]
  cases edit with
  | insert path text =>
    by_cases heq : path.normalize = key
    · simp [Edit.apply, insert, kept?, Edit.path, Edit.text?, heq]
    · simp only [Edit.path, heq, if_false] at hkept
      simp [Edit.apply, insert, kept?, Edit.path, heq, hkept]
  | remove path =>
    simp only [Edit.path] at hkept
    simp only [Edit.apply, remove, kept?, hkept, Edit.path, Edit.text?]
    by_cases heq : path.normalize = key <;> simp [heq]

/-- The last change at a place says what is kept there. -/
theorem kept?_after (edits : List Edit) (key : FilePath) :
    (after edits).kept? key =
      ((edits.filter (·.path.normalize = key)).getLast?).bind Edit.text? := by
  -- from the last change on: it says what is kept, or the changes before it do
  induction edits using List.reverseRecOn with
  | nil => rfl
  | append_singleton edits edit ih =>
    rw [after_concat, kept?_apply, List.filter_append]
    by_cases heq : edit.path.normalize = key
    · simp [heq]
    · simp [heq, ih]

/-- Whatever the changes are, files are kept under normal paths. -/
theorem isNormal_of_mem_keys_after (edits : List Edit) :
    ∀ key ∈ (after edits).keys, key.IsNormal := by
  induction edits using List.reverseRecOn with
  | nil => simp [after, keys, MemoryFiles.empty]
  | append_singleton edits edit ih =>
    rw [after_concat]
    exact isNormal_of_mem_keys_apply ih

/-- Files in memory can all be read. -/
theorem unreadable_after (edits : List Edit) : (after edits).unreadable = [] := by
  induction edits using List.reverseRecOn with
  | nil => rfl
  | append_singleton edits edit ih => rw [after_concat, unreadable_apply, ih]

/-- Changes that are spelled in other ways make the same files. -/
theorem after_eq_of_respells {edits others : List Edit}
    (h : List.Forall₂ Edit.Respells edits others) : after edits = after others := by
  have happly (files : MemoryFiles) {edit other : Edit} (h : edit.Respells other) :
      edit.apply files = other.apply files := by
    obtain ⟨hpath, htext⟩ := h
    cases edit <;> cases other <;>
      simp_all [Edit.path, Edit.text?, Edit.apply, MemoryFiles.insert, MemoryFiles.remove]
  have hfold (files : MemoryFiles) :
      edits.foldl Edit.apply files = others.foldl Edit.apply files := by
    induction h generalizing files with
    | nil => rfl
    | cons h _ ih => rw [List.foldl_cons, List.foldl_cons, happly files h, ih]
  exact hfold _

/-- What is found under a path is what is kept under its normal form. -/
theorem find?_source (h : files.unreadable = []) (p : FilePath) :
    files.source.find? p = (files.kept? p.normalize).map .ok := by
  simp only [Source.find?, source, h, List.map_nil, List.nil_append, List.find?_map, kept?,
    Option.map_map]
  rfl

/-- A file is found if one is kept under the normal form of its path. -/
theorem has_source (h : files.unreadable = []) (p : FilePath) :
    files.source.has p = (files.kept? p.normalize).isSome := by
  rw [Source.has, find?_source h, Option.isSome_map]

/-- The text of a file is what is kept under the normal form of its path. -/
theorem text?_source (h : files.unreadable = []) (p : FilePath) :
    files.source.text? p = files.kept? p.normalize := by
  rw [Source.text?, Source.read, find?_source h]
  cases files.kept? p.normalize <;> rfl

/-- Whether a file is found and which text it has says the last change at its place, however that
change and the path are spelled. -/
theorem text?_after (edits : List Edit) (p : FilePath) :
    (after edits).source.text? p =
        ((edits.filter (·.path.normalize = p.normalize)).getLast?).bind Edit.text? ∧
      (after edits).source.has p = ((after edits).source.text? p).isSome := by
  have hunreadable := unreadable_after edits
  rw [has_source hunreadable, text?_source hunreadable]
  exact ⟨kept?_after edits _, rfl⟩

end MemoryFiles

/-! ## What a scan asks for -/

namespace Course

variable {options : ScanOptions} {source other : Source} {c : Course} {p : FilePath}

/-- A look learns nothing but what the files say of the path that it asks for. -/
theorem look_eq_of_agree (h : ∀ p, c.asked? options = some p → source.AgreeAt other p) :
    c.look options other = c.look options source := by
  simp only [look, asked?] at h ⊢
  cases hnext : c.next options with
  | goes course => rfl
  | looksFor path answer =>
    have hagree := h path (by rw [hnext, Next.path?])
    simp only [Next.answeredBy, hagree.has]
  | reads path answer =>
    have hagree := h path (by rw [hnext, Next.path?])
    simp only [Next.answeredBy, hagree.read]

/-- The paths that a course keeps to ask for them later. -/
def waiting : Course → List FilePath
  | .crawling _ f => f.stack
  | .following _ f _ _ => f.stack
  | .gathering _ documents => documents.map Prod.fst
  | .opening _ path _ documents => path :: documents.map Prod.fst
  | _ => []

/-- The documents that a crawl leaves to be scanned have normal paths. -/
theorem isNormal_of_mem_waiting_crawled (options : ScanOptions) (entry : FilePath) (f : Findings) :
    ∀ p ∈ (crawled options entry f).waiting, p.IsNormal := by
  intro p hp
  simp only [crawled, waiting] at hp
  split at hp
  · rw [ClientDocuments.collect_eq, List.map_map, List.mem_map] at hp
    obtain ⟨path, hpath, rfl⟩ := hp
    exact (ClientDocuments.mem_paths.1 hpath).isNormal
  · cases hp

/-- Whether a step asks for a normal path, if for any, and keeps only normal ones behind it,
whatever the answer is. -/
def Next.IsNormal : Next → Prop
  | goes course => ∀ p ∈ course.waiting, p.IsNormal
  | looksFor path answer => path.IsNormal ∧ ∀ found, ∀ p ∈ (answer found).waiting, p.IsNormal
  | reads path answer => path.IsNormal ∧ ∀ text, ∀ p ∈ (answer text).waiting, p.IsNormal

/-- What a course asks for was kept, or is brought into its normal form for the purpose; so is what
it keeps to ask for it later. -/
theorem isNormal_next (options : ScanOptions) (h : ∀ p ∈ c.waiting, p.IsNormal) :
    (c.next options).IsNormal := by
  -- every path comes from the course itself, or is brought into its normal form here
  cases c with
  | entering entry =>
    refine ⟨FilePath.isNormal_normalize entry, fun found => ?_⟩
    cases found <;> simp [waiting, Findings.start, FilePath.isNormal_normalize]
  | crawling entry f =>
    simp only [next]
    split
    · exact isNormal_of_mem_waiting_crawled options entry f
    · next path rest hstack =>
      have hstack : ∀ p ∈ path :: rest, p.IsNormal := hstack ▸ h
      obtain ⟨hpath, hrest⟩ := List.forall_mem_cons.1 hstack
      split
      · exact hrest
      · split
        · exact isNormal_of_mem_waiting_crawled options entry _
        · refine ⟨hpath, fun text => ?_⟩
          cases text with
          | ok text => exact hrest
          | error reason =>
            simp only [takeUp]
            split
            · simp [waiting]
            · exact hrest
  | following entry f file includes =>
    cases includes with
    | nil => exact h
    | cons included includes =>
      simp only [next]
      split
      · exact h
      · refine ⟨FilePath.isNormal_normalize _, fun found => ?_⟩
        cases found with
        | false => exact h
        | true =>
          -- the target of the include goes on the stack
          exact List.forall_mem_cons.2 ⟨FilePath.isNormal_normalize _, h⟩
  | gathering records documents =>
    cases documents with
    | nil => simp [next, Next.IsNormal, waiting]
    | cons document documents =>
      refine ⟨(List.forall_mem_cons.1 h).1, fun found => ?_⟩
      cases found with
      | false => exact (List.forall_mem_cons.1 h).2
      | true => exact h
  | opening records path persist documents =>
    obtain ⟨hpath, hdocuments⟩ := List.forall_mem_cons.1 h
    refine ⟨hpath, fun text => ?_⟩
    cases text <;> exact hdocuments
  | ended result => simp [next, Next.IsNormal, waiting]

/-- What a look keeps to ask for it later was kept before, or it is normal. -/
theorem isNormal_of_mem_waiting_look (source : Source) (h : ∀ p ∈ c.waiting, p.IsNormal) :
    ∀ p ∈ (c.look options source).waiting, p.IsNormal := by
  have hnormal := isNormal_next options h
  unfold look
  -- whatever the answer is, the course goes on to normal paths
  cases hnext : c.next options with
  | goes course =>
    rw [hnext] at hnormal
    exact hnormal
  | looksFor path answer =>
    rw [hnext] at hnormal
    exact hnormal.2 _
  | reads path answer =>
    rw [hnext] at hnormal
    exact hnormal.2 _

/-- Where looks lead a course while the files change between them. -/
def through (options : ScanOptions) (sources : List Source) (c : Course) : Course :=
  sources.foldl (fun c source => c.look options source) c

/-- However often the files change between looks, what is kept to ask for it later is normal. -/
theorem isNormal_of_mem_waiting_through (sources : List Source) (h : ∀ p ∈ c.waiting, p.IsNormal) :
    ∀ p ∈ (c.through options sources).waiting, p.IsNormal := by
  induction sources generalizing c with
  | nil => exact h
  | cons source sources ih => exact ih (isNormal_of_mem_waiting_look source h)

/-- What is asked for is normal where all that is kept is. -/
theorem isNormal_of_asked (h : ∀ p ∈ c.waiting, p.IsNormal) (hp : c.asked? options = some p) :
    p.IsNormal := by
  have hnormal := isNormal_next options h
  unfold asked? at hp
  cases hnext : c.next options with
  | goes course => simp [hnext] at hp
  | looksFor path answer =>
    rw [hnext] at hnormal hp
    exact Option.some.inj hp ▸ hnormal.1
  | reads path answer =>
    rw [hnext] at hnormal hp
    exact Option.some.inj hp ▸ hnormal.1

/-- Whatever happens to the files in the meantime, a scan asks for normal paths only. -/
theorem isNormal_of_asked_through (options : ScanOptions) (entry : FilePath)
    (sources : List Source)
    (hp : (through options sources (.entering entry)).asked? options = some p) :
    p.IsNormal :=
  isNormal_of_asked (isNormal_of_mem_waiting_through sources (by simp [waiting])) hp

end Course

/-- The files of a snapshot have normal paths. -/
theorem Scan.isNormal_of_mem_files {source : Source} {options : ScanOptions} {entry : FilePath}
    {cancelAfter : Option Nat} {s : Snapshot}
    (hok : (run source options entry cancelAfter).result = .ok s) :
    ∀ p ∈ s.files, p.IsNormal := by
  obtain ⟨c, hc, rfl⟩ := exists_kept_of_ok hok
  intro p hp
  rw [files_ofRecords_append options _ hc] at hp
  exact hc.isNormal p (List.mem_filter.1 hp).1

/-- Normal forms are their own normal forms, and the first of two joined paths may be brought into
its own. A scan asks for one path at a time, which is normal whatever happens to the files in the
meantime, and the files of its snapshot have normal paths. Files in memory are kept under normal
paths; what is found under a path is what the last change at its place has left there, so that the
spellings of the path and of all changes make no difference. -/
theorem FilePath.normalize_settles (options : ScanOptions) (entry : FilePath) :
    (∀ p : FilePath, p.normalize.normalize = p.normalize) ∧
    (∀ a b : FilePath, (a.join b).normalize = (a.normalize.join b).normalize) ∧
    (∀ (c : Course) (source other : Source),
      (∀ p, c.asked? options = some p → source.AgreeAt other p) →
        c.look options other = c.look options source) ∧
    (∀ (sources : List Source) (p : FilePath),
      (Course.through options sources (.entering entry)).asked? options = some p → p.IsNormal) ∧
    (∀ (source : Source) (cancelAfter : Option Nat) (s : Snapshot),
      (Scan.run source options entry cancelAfter).result = .ok s → ∀ p ∈ s.files, p.IsNormal) ∧
    (∀ edits : List MemoryFiles.Edit,
      (∀ key ∈ (MemoryFiles.after edits).keys, key.IsNormal) ∧
      ∀ p, (MemoryFiles.after edits).source.text? p =
          ((edits.filter (·.path.normalize = p.normalize)).getLast?).bind MemoryFiles.Edit.text? ∧
        (MemoryFiles.after edits).source.has p =
          ((MemoryFiles.after edits).source.text? p).isSome) ∧
    (∀ (edits others : List MemoryFiles.Edit) (p q : FilePath),
      List.Forall₂ MemoryFiles.Edit.Respells edits others → p.normalize = q.normalize →
        (MemoryFiles.after edits).source.has p = (MemoryFiles.after others).source.has q ∧
        (MemoryFiles.after edits).source.text? p = (MemoryFiles.after others).source.text? q) := by
  refine ⟨normalize_normalize, normalize_join, fun _ _ _ => Course.look_eq_of_agree,
    fun sources _ => Course.isNormal_of_asked_through options entry sources,
    fun _ _ _ => Scan.isNormal_of_mem_files,
    fun edits => ⟨MemoryFiles.isNormal_of_mem_keys_after edits, MemoryFiles.text?_after edits⟩, ?_⟩
  intro edits others p q hrespells hpq
  -- changes of the same spelling keep the same texts
  have htext : (MemoryFiles.after edits).source.text? p =
      (MemoryFiles.after others).source.text? q := by
    rw [← MemoryFiles.after_eq_of_respells hrespells, (MemoryFiles.text?_after edits p).1,
      (MemoryFiles.text?_after edits q).1, hpq]
  refine ⟨?_, htext⟩
  rw [(MemoryFiles.text?_after edits p).2, (MemoryFiles.text?_after others q).2, htext]

/-- Changes that spell two files in several ways, one of which is removed in the end. -/
def MemoryFiles.wordy : List Edit :=
  [.insert ⟨"/p/./index.graphql"⟩ "schema @sdl(files: [\"sub/../a.graphql\"])",
    .insert ⟨"/p//a.graphql"⟩ "type A", .insert ⟨"/p/b.graphql"⟩ "type B",
    .remove ⟨"/p/sub/../b.graphql"⟩]

/-- The same changes in plain spelling. -/
def MemoryFiles.plain : List Edit :=
  [.insert ⟨"/p/index.graphql"⟩ "schema @sdl(files: [\"sub/../a.graphql\"])",
    .insert ⟨"/p/a.graphql"⟩ "type A", .insert ⟨"/p/b.graphql"⟩ "type B",
    .remove ⟨"/p/b.graphql"⟩]

/-- Two spellings of the same changes make no difference to what is found. -/
theorem FilePath.normalize_settles_wordy :
    (∃ s, (Scan.run (MemoryFiles.after MemoryFiles.wordy).source .default
        ⟨"/p/../p/index.graphql"⟩ none).result = .ok s ∧ ∀ p ∈ s.files, p.IsNormal) ∧
    ((Course.through .default [(MemoryFiles.after MemoryFiles.wordy).source]
        (.entering ⟨"/p/../p/index.graphql"⟩)).asked? .default = some ⟨"/p/index.graphql"⟩ ∧
      IsNormal ⟨"/p/index.graphql"⟩) ∧
    List.Forall₂ MemoryFiles.Edit.Respells MemoryFiles.wordy MemoryFiles.plain ∧
    (MemoryFiles.after MemoryFiles.wordy).source.text? ⟨"/p/./a.graphql"⟩ =
      (MemoryFiles.after MemoryFiles.plain).source.text? ⟨"/p/a.graphql"⟩ ∧
    Course.look .default (MemoryFiles.after (MemoryFiles.plain.take 1)).source
        (.entering ⟨"/p/../p/index.graphql"⟩) =
      Course.look .default (MemoryFiles.after MemoryFiles.wordy).source
        (.entering ⟨"/p/../p/index.graphql"⟩) := by
  obtain ⟨-, -, hlook, hasked, hfiles, -, hspelling⟩ :=
    normalize_settles .default ⟨"/p/../p/index.graphql"⟩
  have hhas : (MemoryFiles.after MemoryFiles.wordy).source.has
      (normalize ⟨"/p/../p/index.graphql"⟩) = true := by
    decide +kernel
  have hcourse : (Course.through .default [(MemoryFiles.after MemoryFiles.wordy).source]
      (.entering ⟨"/p/../p/index.graphql"⟩)).asked? .default = some ⟨"/p/index.graphql"⟩ := by
    decide +kernel
  have hrespells : List.Forall₂ MemoryFiles.Edit.Respells MemoryFiles.wordy MemoryFiles.plain := by
    refine .cons ⟨?_, rfl⟩ (.cons ⟨?_, rfl⟩ (.cons ⟨rfl, rfl⟩ (.cons ⟨?_, rfl⟩ .nil))) <;>
      decide +kernel
  have hlimit : ScanOptions.default.maxFiles = none := rfl
  obtain ⟨s, hok⟩ := Scan.exists_ok hlimit hhas rfl
  -- the file that the two sources do not share is not asked for yet
  have hagree : ∀ p, Course.asked? .default (.entering ⟨"/p/../p/index.graphql"⟩) = some p →
      (MemoryFiles.after MemoryFiles.wordy).source.AgreeAt
        (MemoryFiles.after (MemoryFiles.plain.take 1)).source p := by
    intro p hp
    obtain rfl := Option.some.inj hp
    decide +kernel
  exact ⟨⟨s, hok, hfiles _ none s hok⟩, ⟨hcourse, hasked _ _ hcourse⟩, hrespells,
    (hspelling _ _ _ _ hrespells (by decide +kernel)).2, hlook _ _ _ hagree⟩

end SchemaAtlas
