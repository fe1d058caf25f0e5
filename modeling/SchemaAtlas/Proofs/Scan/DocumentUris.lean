import SchemaAtlas.Proofs.Scan.OperationTexts

/-!
# URIs tell documents apart

A canonical path is read back from its URI, whatever text its steps hold: percent signs that look
like encoded bytes, delimiters of URLs, blanks, characters of several bytes. What comes back may be
spelled with a slash behind it, which is no step. So two documents with canonical paths never share
an entry of the operations of a snapshot.

* `FileUri.exists_toPath_ofPath`      a canonical path back from its URI
* `Scan.path_eq_of_collectedFrom`     what is kept under a URI is from one document
-/

namespace SchemaAtlas

/-- Whether a path is in its normal form, starts at the root, and goes nowhere up. -/
structure FilePath.IsCanonical (p : FilePath) : Prop where
  isNormal : p.IsNormal
  isAbsolute : p.isAbsolute = true
  up : .up ∉ p.route.steps

namespace FileUri

variable {p : FilePath}

/-- A slash behind a path makes no other path of it. -/
theorem same_withSlash (h : p.isAbsolute = true) : (withSlash p).same p = true := by
  rw [FilePath.same, route_withSlash h]
  exact decide_eq_true rfl

/-- A canonical path is read back from its URI. Behind a drive it gets a slash, which makes it no
other path. -/
theorem exists_toPath_ofPath (hp : p.IsCanonical) :
    ∃ found, toPath (ofPath p) = .ok found ∧ found.same p = true ∧
      (endsInDrive p = false → found = p) := by
  have hpath := toPath_ofPath hp.isNormal hp.isAbsolute hp.up
  cases hdrive : endsInDrive p with
  | true =>
    rw [hdrive, if_pos rfl] at hpath
    exact ⟨withSlash p, hpath, same_withSlash hp.isAbsolute, nofun⟩
  | false =>
    rw [hdrive, if_neg (by simp)] at hpath
    exact ⟨p, hpath, decide_eq_true rfl, fun _ => rfl⟩

/-- A path that ends in a drive comes back with a slash behind it, and a percent sign stays one. -/
example : toPath (ofPath ⟨"/p/C:"⟩) = .ok ⟨"/p/C:/"⟩ ∧ toPath (ofPath ⟨"/%41"⟩) = .ok ⟨"/%41"⟩ := by
  decide +kernel

end FileUri

namespace Scan

variable {source : Source} {options : ScanOptions} {entry : FilePath} {cancelAfter : Option Nat}
  {s : Snapshot} {p : FilePath}

/-- What a snapshot keeps under the URI of a normal path was collected from the document there, and
from no other. -/
theorem path_eq_of_collectedFrom (hp : p.IsNormal)
    (hok : (run source options entry cancelAfter).result = .ok s) {operations : List OperationEntry}
    (hkept : s.operations.get? (FileUri.ofPath p) = some operations) {operation : OperationEntry}
    (hmem : operation ∈ operations) :
    (∃ text, operation.CollectedFrom source entry.normalize.directory
      (declared source options s.files) p text) ∧
    ∀ path text, operation.CollectedFrom source entry.normalize.directory
      (declared source options s.files) path text → path = p := by
  obtain ⟨before, hoperations, -, hs⟩ := exists_documents hok
  rw [hs] at hkept
  obtain ⟨path, text, hdeclared, hscanned, huri, rfl⟩ :=
    ClientDocuments.of_get?_operations before hoperations hkept
  -- the URI determines the path
  obtain rfl : p = path := FileUri.ofPath_inj hp hdeclared.isNormal huri
  obtain ⟨executable, hexecutable, rfl⟩ := List.mem_map.1 hmem
  refine ⟨⟨text, hdeclared, hscanned, rfl, executable, hexecutable, rfl⟩, ?_⟩
  intro other otherText hother
  exact FileUri.ofPath_inj hother.declared.isNormal hp hother.uri.symm

end Scan

/-- A canonical path is read back from its URI, up to a slash behind a path that ends in a drive. So
no other canonical path has its URI, and what a scan keeps under this URI was collected from the
document there and from no other. -/
theorem FileUri.same_toPath_ofPath (p : FilePath) (hp : p.IsCanonical) :
    (∃ found, toPath (ofPath p) = .ok found ∧ found.same p = true ∧
      (endsInDrive p = false → found = p)) ∧
    (∀ other : FilePath, other.IsCanonical → other ≠ p → ofPath other ≠ ofPath p) ∧
    (∀ (source : Source) (options : ScanOptions) (entry : FilePath) (cancelAfter : Option Nat)
      (s : Snapshot), (Scan.run source options entry cancelAfter).result = .ok s →
      ∀ operations, s.operations.get? (ofPath p) = some operations →
      ∀ operation ∈ operations,
        (∃ text, operation.CollectedFrom source entry.normalize.directory
          (Scan.declared source options s.files) p text) ∧
        ∀ path text, operation.CollectedFrom source entry.normalize.directory
          (Scan.declared source options s.files) path text → path = p) := by
  refine ⟨exists_toPath_ofPath hp, fun other hother hne huri => ?_, ?_⟩
  · exact hne (ofPath_inj hother.isNormal hp.isNormal huri)
  · intro source options entry cancelAfter s hok operations hkept operation hmem
    exact Scan.path_eq_of_collectedFrom hp.isNormal hok hkept hmem

/-- A path of awkward characters comes back from its URI, and a path of other characters has another
URI. -/
theorem FileUri.same_toPath_ofPath_awkward :
    (∃ found, toPath (ofPath ⟨"/p %41/ä?#.graphql"⟩) = .ok found ∧
      found.same ⟨"/p %41/ä?#.graphql"⟩ = true ∧ found = ⟨"/p %41/ä?#.graphql"⟩) ∧
    ofPath ⟨"/p A/ä?#.graphql"⟩ ≠ ofPath ⟨"/p %41/ä?#.graphql"⟩ ∧
    ∃ s operations,
      (Scan.run Source.awkward .default ⟨"/p %41/index.graphql"⟩ none).result = .ok s ∧
      s.operations.get? (ofPath ⟨"/p %41/ä?#.graphql"⟩) = some operations ∧
      ∀ operation ∈ operations, ∃ text,
        operation.CollectedFrom Source.awkward
          (FilePath.normalize ⟨"/p %41/index.graphql"⟩).directory
          (Scan.declared Source.awkward .default s.files) ⟨"/p %41/ä?#.graphql"⟩ text := by
  have hcanonical : FilePath.IsCanonical ⟨"/p %41/ä?#.graphql"⟩ :=
    ⟨by decide +kernel, by decide, by decide +kernel⟩
  have hother : FilePath.IsCanonical ⟨"/p A/ä?#.graphql"⟩ :=
    ⟨by decide +kernel, by decide, by decide +kernel⟩
  obtain ⟨⟨found, hpath, hsame, hfound⟩, hinj, hscan⟩ :=
    same_toPath_ofPath ⟨"/p %41/ä?#.graphql"⟩ hcanonical
  -- one file is taken up, and it declares one document
  obtain ⟨c, hrun, hdeclared⟩ : ∃ c, (Crawl.start (Scan.target Source.awkward
        ⟨"/p %41/index.graphql"⟩ Source.has_awkward)).run
          (FilePath.normalize ⟨"/p %41/index.graphql"⟩) none none = (c, none) ∧
      Wiring.declarationsOfText c.assembled = [⟨"ä?#.graphql", false⟩] :=
    Crawl.exists_run_of_within 2 _ (by decide +kernel)
  have hdocument : ClientDocuments.Declared
      (FilePath.normalize ⟨"/p %41/index.graphql"⟩).directory
      (Wiring.declarationsOfText c.assembled) ⟨"/p %41/ä?#.graphql"⟩ :=
    ⟨⟨"ä?#.graphql", false⟩, by simp [hdeclared], by decide +kernel⟩
  obtain ⟨s, persist, hok, hget⟩ := Scan.exists_operations_of_crawled ScanOptions.default hrun rfl
    hdocument ⟨by decide +kernel, rfl, by decide +kernel⟩
  refine ⟨⟨found, hpath, hsame, hfound (by decide +kernel)⟩, hinj _ hother (by decide),
    s, _, hok, hget, fun operation hmem => ?_⟩
  exact (hscan _ _ _ _ s hok _ hget operation hmem).1

end SchemaAtlas
