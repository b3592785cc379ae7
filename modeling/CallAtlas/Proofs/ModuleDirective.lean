import CallAtlas.GoMod
import CallAtlas.Proofs.TextCuts

/-! The module path is read from the first line that declares one, whatever blanks, quotes, remarks and line
ends surround it. -/

namespace CallAtlas

namespace GoMod

open Text

/-- A line that begins, behind its blanks, with the word `module` and a blank. -/
def IsDirective (line : String) : Prop :=
  ∃ c, isBlank c = true ∧ "module".toList ++ [c] <+: strip isBlank line.toList

lemma isDirective_iff {line : String} : IsDirective line ↔
    "module".toList <+: strip isBlank line.toList ∧
      ((strip isBlank line.toList).drop "module".length).head?.any isBlank = true := by
  constructor
  · rintro ⟨c, hc, rest, hrest⟩
    rw [← hrest, List.append_assoc]
    exact ⟨List.prefix_append _ _, hc⟩
  · rintro ⟨⟨behind, hbehind⟩, hblank⟩
    rw [← hbehind] at hblank
    obtain ⟨c, hc, hcblank⟩ := Option.any_eq_true _ _ |>.mp hblank
    obtain ⟨rest, rfl⟩ : ∃ rest, behind = c :: rest := List.head?_eq_some_iff.mp hc
    exact ⟨c, hcblank, rest, by rw [← hbehind, List.append_assoc]; rfl⟩

instance (line : String) : Decidable (IsDirective line) := decidable_of_iff' _ isDirective_iff

structure IsModulePath (m : String) : Prop where
  ne_empty : m ≠ ""
  no_blank : m.toList.any isBlank = false
  no_quote : '"' ∉ m.toList
  no_remark : ¬"//".toList <:+: m.toList

inductive Written (m : String) : String → Prop
  | bare : Written m m
  | quoted : Written m ("\"" ++ m ++ "\"")

inductive Remark : String → Prop
  | none : Remark ""
  | some {c : Char} (hc : isBlank c = true) (text : String) : Remark (String.ofList [c] ++ "//" ++ text)

inductive Declares (m : String) : String → Prop
  | intro {lead gap path trail remark : String} (hlead : AllBlank lead) (hgap : AllBlank gap) (hne : gap ≠ "")
      (hpath : Written m path) (htrail : AllBlank trail) (hremark : Remark remark) :
      Declares m (lead ++ "module" ++ gap ++ path ++ trail ++ remark)

def pathBehind (text : List Char) : List Char :=
  strip (· == '"') (strip isBlank (before "//".toList text))

lemma moduleOfLine?_eq_some_iff {line : List Char} {m : String} : moduleOfLine? line = some m ↔
    ∃ c rest, strip isBlank line = "module".toList ++ c :: rest ∧ isBlank c = true ∧
      pathBehind (c :: rest) = m.toList ∧ m ≠ "" := by
  constructor
  · intro h
    simp only [moduleOfLine?] at h
    split at h
    next hpre =>
      obtain ⟨behind, hbehind⟩ := List.isPrefixOf_iff_prefix.mp hpre
      have hdrop : (strip isBlank line).drop "module".length = behind := by
        rw [← hbehind]
        rfl
      rw [hdrop] at h
      split at h
      next => cases h
      next c rest =>
        split at h
        next hc =>
          split at h
          next => cases h
          next hne =>
            obtain rfl := Option.some.inj h
            refine ⟨c, rest, hbehind.symm, hc, (String.toList_ofList).symm, fun hempty => hne ?_⟩
            rw [String.ofList_eq_empty_iff.mp hempty]
            rfl
        next => cases h
    next => cases h
  · rintro ⟨c, rest, hstrip, hc, hpath, hne⟩
    have hprefix : "module".toList.isPrefixOf ("module".toList ++ c :: rest) = true :=
      List.isPrefixOf_iff_prefix.mpr (List.prefix_append _ _)
    have hdrop : ("module".toList ++ c :: rest).drop "module".length = c :: rest := rfl
    have hnonempty : (pathBehind (c :: rest)).isEmpty = false := by
      rw [hpath]
      simpa using hne
    simp only [moduleOfLine?, hstrip, hprefix, if_true, hdrop, hc]
    change (if (pathBehind (c :: rest)).isEmpty then none
      else some (String.ofList (pathBehind (c :: rest)))) = _
    rw [hnonempty, hpath, String.ofList_toList]
    rfl

lemma moduleOfLine?_eq_none {line : String} (h : ¬IsDirective line) : moduleOfLine? line.toList = none := by
  refine Option.eq_none_iff_forall_ne_some.mpr fun m hm => h ?_
  obtain ⟨c, rest, hstrip, hc, _⟩ := moduleOfLine?_eq_some_iff.mp hm
  refine ⟨c, hc, ?_⟩
  rw [hstrip]
  exact ⟨rest, by simp⟩

lemma moduleOfLine?_append {blanks : List Char} (h : ∀ c ∈ blanks, isBlank c = true) (line : List Char) :
    moduleOfLine? (line ++ blanks) = moduleOfLine? line := by
  rw [moduleOfLine?, strip_append_right h, moduleOfLine?]

lemma modulePath?_eq {lines : List String} {text : String} (h : Lines lines text) :
    modulePath? text = lines.findSome? fun line => moduleOfLine? line.toList := by
  rw [modulePath?]
  induction h with
  | @last line h =>
    rw [pieces_of_forall (beq_eq_false_of_notMem h)]
    rfl
  | @cons line ending text lines h hending _ ih =>
    have hline := beq_eq_false_of_notMem h
    rcases hending with rfl | rfl
    · have htext : (line ++ "\n" ++ text).toList = line.toList ++ '\n' :: text.toList := by simp
      rw [htext, pieces_append_cons hline rfl, List.findSome?_cons, List.findSome?_cons, ih]
    · have htext : (line ++ "\r\n" ++ text).toList = (line.toList ++ ['\r']) ++ '\n' :: text.toList := by simp
      have hreturn : ∀ c ∈ line.toList ++ ['\r'], (c == '\n') = false :=
        List.forall_mem_append.mpr ⟨hline, by simp⟩
      rw [htext, pieces_append_cons hreturn rfl, List.findSome?_cons, List.findSome?_cons,
        moduleOfLine?_append (by simp [show isBlank '\r' = true by decide]), ih]

section Declaring

variable {m path trail remark : String}

lemma slash_notMem_blanks {blanks : List Char} (h : ∀ c ∈ blanks, isBlank c = true) : '/' ∉ blanks := by
  intro hmem
  have hslash : isBlank '/' = false := by decide
  cases hslash.symm.trans (h '/' hmem)

lemma IsModulePath.not_blank (hm : IsModulePath m) : ∀ c ∈ m.toList, isBlank c = false := by
  simpa using hm.no_blank

lemma Written.not_blank (hm : IsModulePath m) (h : Written m path) : ∀ c ∈ path.toList, isBlank c = false := by
  have hquote : isBlank '"' = false := by decide
  cases h with
  | bare => exact hm.not_blank
  | quoted =>
    simp only [String.toList_append, List.forall_mem_append]
    exact ⟨⟨by simpa using hquote, hm.not_blank⟩, by simpa using hquote⟩

lemma Written.ne_nil (hm : IsModulePath m) (h : Written m path) : path.toList ≠ [] := by
  cases h with
  | bare => exact mt String.toList_eq_nil_iff.mp hm.ne_empty
  | quoted => simp

lemma Written.unremarked (hm : IsModulePath m) (h : Written m path) : Unremarked path.toList := by
  have hpath : Unremarked m.toList := unremarked_iff.mpr hm.no_remark
  have hquote : Unremarked "\"".toList := List.isChain_singleton '"'
  cases h with
  | bare => exact hpath
  | quoted =>
    rw [String.toList_append, String.toList_append]
    exact (hquote.append hpath (Or.inl (by simp))).append hquote (Or.inr (by simp))

lemma Written.strip_quotes (hm : IsModulePath m) (h : Written m path) :
    strip (· == '"') path.toList = m.toList := by
  have hpath := beq_eq_false_of_notMem hm.no_quote
  have hquote : ∀ c ∈ "\"".toList, (c == '"') = true := by simp
  cases h with
  | bare => exact strip_of_forall hpath
  | quoted =>
    rw [String.toList_append, String.toList_append, strip_append_right hquote, strip_append_left hquote,
      strip_of_forall hpath]

/-- Of what stands behind a path, blanks at most are left before the remark. -/
lemma before_append_tail {text : List Char} (htext : Unremarked text) (htrail : AllBlank trail)
    (hremark : Remark remark) : ∃ blanks, (∀ c ∈ blanks, isBlank c = true) ∧
      before "//".toList (text ++ dropEndWhile isBlank (trail.toList ++ remark.toList)) = text ++ blanks := by
  cases hremark with
  | none =>
    have hnothing : dropEndWhile isBlank (trail.toList ++ "".toList) = [] :=
      List.rdropWhile_eq_nil_iff.mpr (by simpa [AllBlank] using htrail)
    refine ⟨[], by simp, ?_⟩
    rw [hnothing, List.append_nil]
    exact before_of_unremarked htext
  | @some c hc rest =>
    have hblanks : ∀ d ∈ trail.toList ++ [c], isBlank d = true :=
      List.forall_mem_append.mpr ⟨htrail, by simpa using hc⟩
    have hslash : isBlank '/' = false := by decide
    have hlast : '/' ∉ (text ++ (trail.toList ++ [c])).getLast? := by
      rw [← List.append_assoc, List.getLast?_concat]
      rintro ⟨⟩
      cases hslash.symm.trans hc
    have hunremarked : Unremarked (text ++ (trail.toList ++ [c]) ++ ['/']) := by
      refine (htext.append (unremarked_of_notMem (slash_notMem_blanks hblanks)) (Or.inr ?_)).append
        (List.isChain_singleton '/') (Or.inl hlast)
      exact fun hhead => slash_notMem_blanks hblanks (List.mem_of_mem_head? hhead)
    refine ⟨trail.toList ++ [c], hblanks, ?_⟩
    have hrest : trail.toList ++ (String.ofList [c] ++ "//" ++ rest).toList =
        (trail.toList ++ [c] ++ ['/']) ++ '/' :: rest.toList := by simp
    rw [hrest, dropEndWhile_of_getLast hslash, ← List.append_assoc, ← List.append_assoc,
      List.append_assoc _ ['/']]
    exact before_append_remark hunremarked _

lemma Declares.moduleOfLine?_eq {line : String} (hm : IsModulePath m) (h : Declares m line) :
    moduleOfLine? line.toList = some m := by
  obtain @⟨lead, gap, path, trail, remark, hlead, hgap, hne, hpath, htrail, hremark⟩ := h
  obtain ⟨c, behind, hgapText⟩ := List.exists_cons_of_ne_nil (mt String.toList_eq_nil_iff.mp hne)
  obtain ⟨front, d, hpathText⟩ := (List.eq_nil_or_concat path.toList).resolve_left (hpath.ne_nil hm)
  have hd : isBlank d = false := hpath.not_blank hm d (by simp [hpathText])
  have hm' : isBlank 'm' = false := by decide
  -- trimming reaches the blanks in front and what stands behind the last character of the path, no more
  set tail := dropEndWhile isBlank (trail.toList ++ remark.toList) with htail
  have hstrip : strip isBlank (lead ++ "module" ++ gap ++ path ++ trail ++ remark).toList =
      "module".toList ++ (gap.toList ++ path.toList ++ tail) := by
    have htext : (lead ++ "module" ++ gap ++ path ++ trail ++ remark).toList =
        lead.toList ++
          ('m' :: ("odule".toList ++ gap.toList ++ front) ++ d :: (trail.toList ++ remark.toList)) := by
      simp [hpathText]
    rw [htext, strip_append_left hlead, strip_between hm' hd, ← htail, hpathText]
    simp
  have hunremarked : Unremarked (gap.toList ++ path.toList) := by
    refine (unremarked_of_notMem (slash_notMem_blanks hgap)).append (hpath.unremarked hm) (Or.inl ?_)
    exact fun hlast => slash_notMem_blanks hgap (List.mem_of_mem_getLast? hlast)
  obtain ⟨blanks, hblanks, hbefore⟩ := before_append_tail hunremarked htrail hremark
  have hbehind : pathBehind (gap.toList ++ path.toList ++ tail) = m.toList := by
    rw [pathBehind, hbefore, strip_append_right hblanks, strip_append_left hgap,
      strip_of_forall (hpath.not_blank hm), hpath.strip_quotes hm]
  rw [hgapText] at hstrip hbehind
  exact moduleOfLine?_eq_some_iff.mpr
    ⟨c, behind ++ path.toList ++ tail, hstrip, hgap c (by simp [hgapText]), hbehind, hm.ne_empty⟩

end Declaring

lemma pathBehind_unremarked (text : List Char) : ¬"//".toList <:+: pathBehind text := by
  intro hpair
  refine unremarked_iff.mp (unremarked_before text) (hpair.trans ?_)
  exact (strip_isInfix _ _).trans (strip_isInfix _ _)

lemma mem_line_of_mem_path {line m : String} (h : moduleOfLine? line.toList = some m) :
    m.toList ⊆ line.toList := by
  obtain ⟨c, rest, hstrip, _, hpath, _⟩ := moduleOfLine?_eq_some_iff.mp h
  have hrest : c :: rest <:+: line.toList := by
    refine List.IsInfix.trans ?_ (strip_isInfix isBlank line.toList)
    rw [hstrip]
    exact (List.suffix_append _ _).isInfix
  rw [← hpath]
  exact ((strip_isInfix _ _).trans ((strip_isInfix _ _).trans
    ((before_isPrefix _ _).isInfix.trans hrest))).subset

theorem first_module_line_names_module :
    (∀ m earlier line later text, IsModulePath m → (∀ l ∈ earlier, ¬IsDirective l) → Declares m line →
      Lines (earlier ++ line :: later) text → modulePath? text = some m) ∧
    (∀ text, (∃ lines, Lines lines text) ∧
      ∀ lines, Lines lines text → (∀ l ∈ lines, ¬IsDirective l) → modulePath? text = none) ∧
    ∀ text m, modulePath? text = some m → m ≠ "" ∧ '\n' ∉ m.toList ∧ ¬"//".toList <:+: m.toList := by
  have hnone : ∀ {lines : List String}, (∀ l ∈ lines, ¬IsDirective l) →
      (lines.findSome? fun l => moduleOfLine? l.toList) = none := by
    intro lines h
    exact List.findSome?_eq_none_iff.mpr fun l hl => moduleOfLine?_eq_none (h l hl)
  refine ⟨?_, ?_, ?_⟩
  · intro m earlier line later text hm hearlier hline htext
    rw [modulePath?_eq htext, List.findSome?_append, hnone hearlier, List.findSome?_cons,
      hline.moduleOfLine?_eq hm, Option.none_or]
  · intro text
    refine ⟨?_, fun lines htext h => (modulePath?_eq htext).trans (hnone h)⟩
    simpa using exists_lines text.toList
  · intro text m h
    obtain ⟨lines, hlines⟩ := exists_lines text.toList
    rw [String.ofList_toList] at hlines
    rw [modulePath?_eq hlines] at h
    obtain ⟨line, hline, hm⟩ := List.exists_of_findSome?_eq_some h
    obtain ⟨c, rest, _, _, hpath, hne⟩ := moduleOfLine?_eq_some_iff.mp hm
    refine ⟨hne, ?_, hpath ▸ pathBehind_unremarked _⟩
    exact fun hmem => hlines.newline_notMem line hline (mem_line_of_mem_path hm hmem)

def quotedDirective : String :=
  "\t" ++ "module" ++ "\u00a0 " ++ ("\"" ++ "example.com/m" ++ "\"") ++ " \t" ++
    (String.ofList [' '] ++ "//" ++ " v2 ")

def lookalikes : String :=
  "// module x" ++ "\r\n" ++ ("modulename x" ++ "\n" ++ ("module" ++ "\n" ++
    (quotedDirective ++ "\r\n" ++ ("module other" ++ "\n" ++ ""))))

theorem lookalikes_module :
    IsModulePath "example.com/m" ∧ (∀ l ∈ ["// module x", "modulename x", "module"], ¬IsDirective l) ∧
    modulePath? lookalikes = some "example.com/m" ∧ modulePath? ("go 1.22" ++ "\n" ++ "") = none ∧
    '\n' ∉ "example.com/m".toList := by
  obtain ⟨hread, hnone, hshape⟩ := first_module_line_names_module
  have hunremarked : Unremarked "example.com/m".toList := by
    unfold Unremarked
    decide
  have hpath : IsModulePath "example.com/m" := ⟨by decide, by decide, by decide, unremarked_iff.mp hunremarked⟩
  have hearlier : ∀ l ∈ ["// module x", "modulename x", "module"], ¬IsDirective l := by decide
  have hline : Declares "example.com/m" quotedDirective :=
    .intro (List.all_eq_true.mp (by decide)) (List.all_eq_true.mp (by decide)) (by decide) .quoted
      (List.all_eq_true.mp (by decide)) (.some (by decide) " v2 ")
  have hnewline : '\n' ∉ quotedDirective.toList := by decide
  have htext : Lines (["// module x", "modulename x", "module"] ++ quotedDirective :: ["module other", ""])
      lookalikes :=
    .cons (by decide) (Or.inr rfl) (.cons (by decide) (Or.inl rfl) (.cons (by decide) (Or.inl rfl)
      (.cons hnewline (Or.inr rfl) (.cons (by decide) (Or.inl rfl) (.last (by decide))))))
  have hmodule := hread _ _ _ _ _ hpath hearlier hline htext
  have hgo : Lines ["go 1.22", ""] ("go 1.22" ++ "\n" ++ "") :=
    .cons (by decide) (Or.inl rfl) (.last (by decide))
  exact ⟨hpath, hearlier, hmodule, (hnone _).2 _ hgo (by decide), (hshape _ _ hmodule).2.1⟩

end GoMod

end CallAtlas
