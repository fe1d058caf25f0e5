import SchemaAtlas.Document.Reading
import SchemaAtlas.Proofs.Document.Lexing
import SchemaAtlas.Proofs.Salvage.Joined

/-!
# The tokens of joined texts

Texts without syntax errors are joined, each followed by a line feed. The tokens of what results are
the tokens of the texts, one after another, so a sweep finds in it what the texts hold.

* `Token.alike_scan`       the tokens of a text wherever it begins
* `Salvage.joins_scan`     the tokens of joined texts
* `Salvage.finds_texts`    what a sweep finds in joined texts
-/

namespace SchemaAtlas

namespace Token

/-- Whether a comma stands before the first token does not depend on where a text begins. -/
theorem afterComma_head_scan (cs : List Char) (start start' : Nat) (comma : Bool) :
    (scan cs start comma).head?.map afterComma = (scan cs start' comma).head?.map afterComma := by
  induction cs, start, comma using scan.induct generalizing start' with
  | case1 start comma => rw [scan_nil, scan_nil]
  | case2 start comma c rest hblank ih =>
    rw [scan_of_blank hblank, scan_of_blank hblank]
    exact ih _
  | case3 start comma rest hblank ih =>
    rw [scan_comma, scan_comma]
    exact ih _
  | case4 start comma rest body hblank hcomma ih =>
    rw [scan_comment, scan_comment]
    exact ih _
  | case5 start comma c rest hblank hcomma hcomment n hlexeme =>
    rw [scan_of_wrong hblank hcomma hcomment hlexeme, scan_of_wrong hblank hcomma hcomment hlexeme]
    rfl
  | case6 start comma c rest hblank hcomma hcomment kind n hlexeme stop hkind ih =>
    rw [scan_of_lexeme hblank hcomma hcomment hlexeme hkind,
      scan_of_lexeme hblank hcomma hcomment hlexeme hkind]
    rfl

/-- The tokens of a text are alike wherever it begins, and whether or not a comma stands before
it. -/
theorem alike_scan (more : List Token) (cs : List Char) (start start' : Nat) (comma comma' : Bool) :
    Alike more (scan cs start comma) (scan cs start' comma' ++ more) := by
  induction cs, start, comma using scan.induct generalizing start' comma' with
  | case1 start comma =>
    rw [scan_nil, scan_nil]
    exact .done
  | case2 start comma c rest hblank ih =>
    rw [scan_of_blank hblank, scan_of_blank hblank]
    exact ih _ _
  | case3 start comma rest hblank ih =>
    rw [scan_comma, scan_comma]
    exact ih _ _
  | case4 start comma rest body hblank hcomma ih =>
    rw [scan_comment, scan_comment]
    exact ih _ _
  | case5 start comma c rest hblank hcomma hcomment n hlexeme =>
    rw [scan_of_wrong hblank hcomma hcomment hlexeme, scan_of_wrong hblank hcomma hcomment hlexeme]
    exact .next rfl (by simp) .done
  | case6 start comma c rest hblank hcomma hcomment kind n hlexeme stop hkind ih =>
    rw [scan_of_lexeme hblank hcomma hcomment hlexeme hkind,
      scan_of_lexeme hblank hcomma hcomment hlexeme hkind, List.cons_append]
    refine .next rfl (fun t ht => ?_) (ih _ false)
    -- behind a token, both scans go on as if no comma stood there
    have hhead := afterComma_head_scan (rest.drop n) stop
      (start' + c.utf8Size + Text.byteLength (rest.take n)) false
    rw [ht] at hhead
    rw [List.head?_append, Option.map_or, ← hhead]
    rfl

/-- The kinds of alike tokens are the same, with those behind them at the end. -/
theorem Alike.kinds {more ts us : List Token} (h : Alike more ts us) :
    us.map kind = ts.map kind ++ more.map kind := by
  induction h with
  | done => rfl
  | next hkind hcomma hrest ih => rw [List.map_cons, List.map_cons, List.cons_append, hkind, ih]

/-- What the tokens of a text are does not depend on where it begins. -/
theorem kinds_scan (cs : List Char) (start start' : Nat) (comma comma' : Bool) :
    (scan cs start comma).map kind = (scan cs start' comma').map kind := by
  have h := (alike_scan [] cs start' start comma' comma).kinds
  rwa [List.append_nil, List.map_nil, List.append_nil] at h

end Token

open Token (Alike)

namespace Salvage

/-- The last token of what is left is the last one of all. -/
theorem Unbroken.tail {t : Token} {ts : List Token} (h : Unbroken (t :: ts)) : Unbroken ts := by
  cases ts with
  | nil => exact unbroken_nil
  | cons t' ts =>
    intro last hlast
    exact h last (by rwa [List.getLast?_cons_cons])

/-- Only the last token of a text can be a wrong one. -/
theorem wrong_notMem_kinds {cs : List Char} {start : Nat} {comma : Bool}
    (h : Unbroken (Token.scan cs start comma)) :
    Token.Kind.wrong ∉ (Token.scan cs start comma).map Token.kind := by
  induction cs, start, comma using Token.scan.induct with
  | case1 start comma =>
    rw [Token.scan_nil]
    exact List.not_mem_nil
  | case2 start comma c rest hblank ih =>
    rw [Token.scan_of_blank hblank] at h ⊢
    exact ih h
  | case3 start comma rest hblank ih =>
    rw [Token.scan_comma] at h ⊢
    exact ih h
  | case4 start comma rest body hblank hcomma ih =>
    rw [Token.scan_comment] at h ⊢
    exact ih h
  | case5 start comma c rest hblank hcomma hcomment n hlexeme =>
    rw [Token.scan_of_wrong hblank hcomma hcomment hlexeme] at h
    -- the wrong token would be the last one
    exact absurd rfl (h _ rfl)
  | case6 start comma c rest hblank hcomma hcomment kind n hlexeme stop hkind ih =>
    rw [Token.scan_of_lexeme hblank hcomma hcomment hlexeme hkind] at h ⊢
    rw [List.map_cons, List.mem_cons, not_or]
    exact ⟨fun heq => hkind heq.symm, ih (Unbroken.tail h)⟩

/-- What is read to its end holds no wrong token. -/
theorem Reads.unbroken {ts : List Token} {ds : List Definition} (h : Reads ts ds) :
    Unbroken ts := by
  induction h with
  | done => exact unbroken_nil
  | @next ts rest d ds hdefinition hrest ih =>
    obtain ⟨-, htogether | ⟨-, t, more', hmore, -⟩⟩ :=
      introduces_definition (Alike.refl ts) hdefinition fun _ => closed_nil
    · obtain ⟨k, hk, hle, rfl, -, hlast⟩ := htogether
      -- the last token is in the rest, or it is the last one of the definition
      by_cases hless : k < ts.length
      · exact ih.of_drop hless
      · exact hlast (List.drop_eq_nil_of_le (by omega))
    · cases hmore

/-- A text without syntax errors is read to its end. -/
theorem reads_ofText {text : String} (h : (Document.ofText text).isSound = true) :
    Reads (Token.ofText text) (Document.ofText text).definitions := by
  rcases hfrom : Document.definitionsFrom (Token.ofText text) (Token.ofText text) with ⟨ds, fault⟩
  -- a text without tokens has a syntax error at its end
  by_cases hempty : (Token.ofText text).isEmpty = true
  · simp [Document.isSound, Document.ofText, hempty, hfrom] at h
  · have hdocument : Document.ofText text =
        { definitions := ds, fault := fault.map (Document.offsetOf text.utf8ByteSize) } := by
      simp [Document.ofText, hempty, hfrom]
    rw [hdocument] at h ⊢
    obtain rfl : fault = none := by simpa [Document.isSound] using h
    exact reads_of_definitionsFrom (Nat.le_refl _) hfrom

/-- The tokens of joined texts are those of the texts, by induction on the texts. -/
theorem joins_scan {texts : List String} (h : ∀ text ∈ texts, Unbroken (Token.ofText text))
    (start : Nat) (comma : Bool) :
    Joins (texts.map Token.ofText)
      (Token.scan (String.join (texts.map (· ++ "\n"))).toList start comma) := by
  induction texts generalizing start comma with
  | nil =>
    simpa [Token.scan_nil] using Joins.nil
  | cons text texts ih =>
    have hunbroken : Unbroken (Token.ofText text) := h text List.mem_cons_self
    -- nothing is wrong in a text that is read to its end, wherever it begins
    have hkinds : ∀ t ∈ Token.scan text.toList start comma, t.kind ≠ .wrong := by
      intro t ht hwrong
      refine wrong_notMem_kinds hunbroken ?_
      rw [Token.kinds_scan _ 0 start false comma, ← hwrong]
      exact List.mem_map_of_mem ht
    have hchars : (String.join ((text :: texts).map (· ++ "\n"))).toList =
        text.toList ++ '\n' :: (String.join (texts.map (· ++ "\n"))).toList := by
      simp
    obtain ⟨stop, comma', hscan⟩ := Token.scan_append_lineFeed text.toList
      (String.join (texts.map (· ++ "\n"))).toList start comma hkinds
    rw [hchars, hscan, List.map_cons]
    exact .cons (Token.alike_scan _ _ _ _ _ _)
      (ih (fun other hother => h other (List.mem_cons_of_mem _ hother)) stop comma')

/-- A sweep over joined texts without syntax errors finds the directives of all of them. -/
theorem finds_texts {texts : List String}
    (h : ∀ text ∈ texts, (Document.ofText text).isSound = true) :
    Finds (Braceless (texts.map Token.ofText).tail)
      (Token.ofText (String.join (texts.map (· ++ "\n"))))
      (directivesOf (texts.flatMap fun text => (Document.ofText text).definitions)) := by
  have hreads : List.Forall₂ Reads (texts.map Token.ofText)
      (texts.map fun text => (Document.ofText text).definitions) := by
    rw [List.forall₂_map_left_iff, List.forall₂_map_right_iff, List.forall₂_same]
    exact fun text htext => reads_ofText (h text htext)
  rw [List.flatMap_def]
  refine finds_joined hreads (joins_scan (fun text htext => ?_) 0 false)
  exact (reads_ofText (h text htext)).unbroken

/-- A sweep finds in a text without syntax errors what is read in it. -/
theorem sameDirectives_of_reads {ts : List Token} {ds : List Definition} (h : Reads ts ds) :
    List.Forall₂ SameDirective (directivesOf ds) (directiveLists ts).flatten := by
  obtain ⟨lists, hsweeps, -, hequal⟩ :=
    finds_joined (.cons h .nil) (.cons (Alike.refl ts) .nil)
  rw [List.flatten_singleton] at hequal
  rw [directiveLists_of_sweeps hsweeps]
  exact hequal (.inr ⟨ds, h⟩)

end Salvage

end SchemaAtlas
