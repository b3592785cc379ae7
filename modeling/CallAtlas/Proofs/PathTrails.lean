import CallAtlas.FileSystem
import CallAtlas.Proofs.DirTreeGrowth

/-! Following a path looks at the places of its trail only. Two file systems that agree there lead it to the
same file. -/

namespace CallAtlas

namespace FileNode

/-- The same stands at two places, but for what is in them if they are directories. -/
def Alike : Option FileNode → Option FileNode → Prop
  | some (directory _), some (directory _) => True
  | a, b => a = b

lemma Alike.refl (a : Option FileNode) : Alike a a := by
  rcases a with _ | _ | _ | _ <;> trivial

lemma Alike.symm {a b : Option FileNode} (h : Alike a b) : Alike b a := by
  rcases a with _ | _ | _ | _ <;> rcases b with _ | _ | _ | _ <;> first | trivial | exact Eq.symm h

lemma Alike.cases {a b : Option FileNode} (h : Alike a b) :
    (∃ es es', a = some (directory es) ∧ b = some (directory es')) ∨ b = a ∧ ∀ es, a ≠ some (directory es) := by
  unfold Alike at h
  split at h
  next es es' => exact Or.inl ⟨es, es', rfl, rfl⟩
  next hne =>
    subst h
    exact Or.inr ⟨rfl, fun es hes => hne es es hes hes⟩

lemma at?_append (node : FileNode) (p q : List String) :
    node.at? (p ++ q) = (node.at? p).bind (·.at? q) := by
  induction p generalizing node with
  | nil => rfl
  | cons n p ih =>
    rw [List.cons_append, at?, at?]
    cases node.child? n with
    | none => rfl
    | some c => exact ih c

lemma at?_snoc {node : FileNode} {es : List (String × FileNode)} {p : List String}
    (h : node.at? p = some (directory es)) (n : String) :
    node.at? (p ++ [n]) = (directory es).child? n := by
  rw [at?_append, h, Option.bind_some, at?]
  cases (directory es).child? n <;> rfl

end FileNode

namespace FileSystem

open FileNode

/-- Parts of a path that name no entry. -/
def isDotted (part : String) : Bool := part = "" || part = "." || part = ".."

/-- What becomes of a path at one of its parts. -/
inductive Turn where
  | blocked
  | missing
  | go (dir : List String)
  | link (target : String)

def turn (fs : FileSystem) (dir : List String) (part : String) : Turn :=
  match fs.root.at? dir with
  | some (.directory _) =>
    if part = "" || part = "." then .go dir
    else if part = ".." then .go dir.dropLast
    else
      match fs.root.at? (dir ++ [part]) with
      | none => .missing
      | some (.link target) => .link target
      | some _ => .go (dir ++ [part])
  | _ => .blocked

/-- The places that decide a turn. -/
def looks (dir : List String) (part : String) : List (List String) :=
  if isDotted part then [dir] else [dir, dir ++ [part]]

/-- The places that a path comes by on its way from a directory, through at most `hops` links. -/
def trail (fs : FileSystem) (hops : Nat) (dir : List String) : List String → List (List String)
  | [] => [dir]
  | part :: rest =>
    looks dir part ++
      match fs.turn dir part with
      | .blocked | .missing => []
      | .go dir => trail fs hops dir rest
      | .link target =>
        match hops with
        | 0 => []
        | hops + 1 => if target.startsWith "/" then [] else trail fs hops dir (parts target ++ rest)
termination_by path => (hops, path.length)

variable {fs fs' : FileSystem} {hops : Nat} {dir : List String} {path : List String}

lemma follow_cons (fs : FileSystem) (hops : Nat) (dir : List String) (part : String) (rest : List String) :
    fs.follow hops dir (part :: rest) =
      match fs.turn dir part with
      | .blocked => .error .notDirectory
      | .missing => if rest.isEmpty then .ok (.vacant dir part) else .error .notFound
      | .go dir => fs.follow hops dir rest
      | .link target =>
        match hops with
        | 0 => .error .tooManyLinks
        | hops + 1 =>
          if target.startsWith "/" then .error .notFound else fs.follow hops dir (parts target ++ rest) := by
  rw [follow, turn]
  cases hdir : fs.root.at? dir with
  | none => rfl
  | some node =>
    cases node with
    | file _ | link _ => rfl
    | directory es =>
      rw [at?_snoc hdir]
      by_cases hstay : (part = "" || part = ".") = true
      · simp only [hstay, if_true]
      · by_cases hup : part = ".."
        · subst hup
          rfl
        · simp only [hstay, hup, if_false, Bool.false_eq_true]
          rcases (directory es).child? part with _ | _ | _ | _ <;> rfl

lemma dir_mem_looks (dir : List String) (part : String) : dir ∈ looks dir part := by
  unfold looks
  split <;> exact List.mem_cons_self

lemma entry_mem_looks {part : String} (h : isDotted part = false) (dir : List String) :
    dir ++ [part] ∈ looks dir part := by
  simp [looks, h]

/-- Two file systems with the same at every place that is not hidden. -/
structure AgreesOutside (hidden : List String → Prop) (fs fs' : FileSystem) : Prop where
  here_eq : fs'.here = fs.here
  alike : ∀ q, ¬hidden q → Alike (fs.root.at? q) (fs'.root.at? q)

variable {hidden : List String → Prop}

lemma AgreesOutside.symm (h : fs.AgreesOutside hidden fs') : fs'.AgreesOutside hidden fs :=
  ⟨h.here_eq.symm, fun q hq => (h.alike q hq).symm⟩

lemma AgreesOutside.turn_eq (h : fs.AgreesOutside hidden fs') {part : String}
    (hclear : ∀ q ∈ looks dir part, ¬hidden q) : fs'.turn dir part = fs.turn dir part := by
  rw [turn, turn]
  obtain ⟨es, es', hes, hes'⟩ | ⟨hsame, hes⟩ := (h.alike dir (hclear dir (dir_mem_looks dir part))).cases
  · simp only [hes, hes']
    split
    · rfl
    next hstay =>
      split
      · rfl
      next hup =>
        have hname : isDotted part = false := by simp_all [isDotted]
        have halike := h.alike (dir ++ [part]) (hclear _ (entry_mem_looks hname dir))
        obtain ⟨_, _, hsub, hsub'⟩ | ⟨hsame, _⟩ := halike.cases
        · rw [hsub, hsub']
        · rw [hsame]
  · rw [hsame]
    split
    next es hdir => exact absurd hdir (hes es)
    next => rfl

lemma AgreesOutside.follow_eq (h : fs.AgreesOutside hidden fs')
    (hclear : ∀ q ∈ fs.trail hops dir path, ¬hidden q) :
    fs'.follow hops dir path = fs.follow hops dir path := by
  fun_induction trail fs hops dir path with
  | case1 hops dir => rw [follow, follow]
  | case2 hops dir part rest ihgo ihlink =>
    obtain ⟨hlooks, hrest⟩ := List.forall_mem_append.mp hclear
    rw [follow_cons, follow_cons, h.turn_eq hlooks]
    cases ht : fs.turn dir part with
    | blocked | missing => rfl
    | go dir =>
      rw [ht] at hrest
      exact ihgo dir hrest
    | link target =>
      rw [ht] at hrest
      cases hops with
      | zero => rfl
      | succ hops =>
        simp only at hrest ⊢
        split
        · rfl
        next hrelative =>
          rw [if_neg hrelative] at hrest
          exact ihlink target hrest

inductive Leads (fs : FileSystem) : Nat → List String → List String → List String → Prop
  | here (hops : Nat) (dir : List String) : Leads fs hops dir [] dir
  | go {hops : Nat} {dir dir' rest q : List String} {part : String} (ht : fs.turn dir part = .go dir')
      (h : Leads fs hops dir' rest q) : Leads fs hops dir (part :: rest) q
  | link {hops : Nat} {dir rest q : List String} {part target : String} (ht : fs.turn dir part = .link target)
      (hrelative : ¬target.startsWith "/") (h : Leads fs hops dir (parts target ++ rest) q) :
      Leads fs (hops + 1) dir (part :: rest) q

variable {q : List String}

lemma leads_of_follow (h : fs.follow hops dir path = .ok (.found q)) : fs.Leads hops dir path q := by
  fun_induction trail fs hops dir path with
  | case1 hops dir =>
    rw [follow] at h
    cases h
    exact .here hops q
  | case2 hops dir part rest ihgo ihlink =>
    rw [follow_cons] at h
    cases ht : fs.turn dir part with
    | blocked =>
      rw [ht] at h
      cases h
    | missing =>
      rw [ht] at h
      simp only at h
      split at h <;> cases h
    | go dir =>
      rw [ht] at h
      exact .go ht (ihgo dir h)
    | link target =>
      rw [ht] at h
      cases hops with
      | zero => cases h
      | succ hops =>
        simp only at h
        split at h
        · cases h
        next hrelative => exact .link ht hrelative (ihlink target h)

lemma Leads.mem_trail (h : fs.Leads hops dir path q) : q ∈ fs.trail hops dir path := by
  induction h with
  | here hops dir =>
    rw [trail]
    exact List.mem_singleton_self dir
  | go ht _ ih =>
    rw [trail, ht]
    exact List.mem_append_right _ ih
  | link ht hrelative _ ih =>
    rw [trail, ht]
    simp only [if_neg hrelative]
    exact List.mem_append_right _ ih

lemma Leads.follow_append (h : fs.Leads hops dir path q) :
    ∃ left, ∀ rest, fs.follow hops dir (path ++ rest) = fs.follow left q rest := by
  induction h with
  | here hops dir => exact ⟨hops, fun rest => rfl⟩
  | go ht _ ih =>
    obtain ⟨left, hleft⟩ := ih
    refine ⟨left, fun rest => ?_⟩
    rw [List.cons_append, follow_cons, ht]
    exact hleft rest
  | link ht hrelative _ ih =>
    obtain ⟨left, hleft⟩ := ih
    refine ⟨left, fun rest => ?_⟩
    rw [List.cons_append, follow_cons, ht]
    simp only [if_neg hrelative]
    rw [← List.append_assoc]
    exact hleft rest

lemma turn_empty (fs : FileSystem) (dir : List String) :
    fs.turn dir "" = .go dir ∨ ∀ part, fs.turn dir part = .blocked := by
  simp only [turn]
  split
  next => exact Or.inl rfl
  next => exact Or.inr fun _ => rfl

/-- Two slashes in a row lead where one does. -/
lemma follow_empty_part (fs : FileSystem) (hops : Nat) (dir path : List String) {rest : List String}
    (hne : rest ≠ []) : fs.follow hops dir (path ++ "" :: rest) = fs.follow hops dir (path ++ rest) := by
  fun_induction trail fs hops dir path with
  | case1 hops dir =>
    obtain ⟨part, rest, rfl⟩ := List.exists_cons_of_ne_nil hne
    rw [List.nil_append, List.nil_append, follow_cons]
    rcases turn_empty fs dir with hgo | hblocked
    · rw [hgo]
    · rw [hblocked, follow_cons, hblocked]
  | case2 hops dir part path ihgo ihlink =>
    rw [List.cons_append, List.cons_append, follow_cons, follow_cons]
    cases ht : fs.turn dir part with
    | blocked => rfl
    | missing => simp [hne]
    | go dir => exact ihgo dir
    | link target =>
      cases hops with
      | zero => rfl
      | succ hops =>
        simp only
        rw [← List.append_assoc, ← List.append_assoc, ihlink target]

lemma parts_append (a b : String) : parts (a ++ "/" ++ b) = parts a ++ parts b := by
  have htext : (a ++ "/" ++ b).toList = a.toList ++ '/' :: b.toList := by simp
  simp only [parts, htext, Text.pieces_eq_splitOnP]
  rw [List.splitOnP_append_cons _ _ (by decide), List.map_append]

lemma parts_ne_nil (path : String) : parts path ≠ [] := by
  simp [parts, Text.pieces_ne_nil]

lemma parts_relative {names : List String} (hne : names ≠ []) (h : ∀ n ∈ names, IsName n) :
    parts (Path.relative names) = names :=
  Path.pieces_relative rfl hne fun n hn c hc => (Bool.or_eq_false_iff.mp ((h n hn).no_separator c hc)).1

lemma follow_join (fs : FileSystem) (hops : Nat) (dir : List String) {path : String} (hne : path ≠ "")
    (r : String) :
    fs.follow hops dir (parts (Path.join path r)) = fs.follow hops dir (parts path ++ parts r) := by
  rw [Path.join]
  split
  next hempty => exact absurd (String.toList_eq_nil_iff.mp (List.getLast?_eq_none_iff.mp hempty)) hne
  next hslash =>
    obtain ⟨front, hfront⟩ : ∃ front, path = front ++ "/" := by
      obtain ⟨front, hfront⟩ := List.getLast?_eq_some_iff.mp hslash
      refine ⟨String.ofList front, ?_⟩
      rw [← String.toList_inj, hfront]
      simp
    have hparts : parts path = parts front ++ [""] := by
      have h := parts_append front ""
      rwa [String.append_empty, ← hfront] at h
    rw [hparts, List.append_assoc, List.singleton_append,
      follow_empty_part fs hops dir _ (parts_ne_nil r), hfront, parts_append]
  next => rw [parts_append]

lemma exists_toList_join (path r : String) : ∃ rest, (Path.join path r).toList = path.toList ++ rest := by
  rw [Path.join]
  split
  · exact ⟨_, String.toList_append⟩
  · exact ⟨_, String.toList_append⟩
  · rw [String.append_assoc]
    exact ⟨_, String.toList_append⟩

/-- An entry is followed from where the path of its directory leads. -/
lemma locate_join {path : String} (h : fs.locate path = .ok (.found q)) :
    ∃ left, ∀ r, fs.locate (Path.join path r) = fs.follow left q (parts r) := by
  rw [locate] at h
  split at h
  · cases h
  next hpath =>
    obtain ⟨hne, hrelative⟩ : path ≠ "" ∧ ¬path.startsWith "/" := by simpa [not_or] using hpath
    obtain ⟨left, hleft⟩ := (leads_of_follow h).follow_append
    refine ⟨left, fun r => ?_⟩
    obtain ⟨c, text, hc⟩ := List.exists_cons_of_ne_nil (mt String.toList_eq_nil_iff.mp hne)
    obtain ⟨rest, hrest⟩ := exists_toList_join path r
    rw [locate, if_neg, follow_join fs _ _ hne, hleft]
    rw [String.startsWith_string_iff, hc] at hrelative
    rw [Bool.or_eq_true, not_or, decide_eq_true_eq, ← String.toList_eq_nil_iff,
      String.startsWith_string_iff, hrest, hc]
    refine ⟨List.cons_ne_nil _ _, fun hpre => hrelative ?_⟩
    obtain ⟨rfl, _⟩ := List.cons_prefix_cons.mp hpre
    exact List.cons_prefix_cons.mpr ⟨rfl, List.nil_prefix⟩

section Unlinked

variable {names : List String}

def Unlinked (fs : FileSystem) (dir names : List String) : Prop :=
  ∀ way, way <+: names → ∀ target, fs.root.at? (dir ++ way) ≠ some (.link target)

lemma Unlinked.tail {n : String} (h : fs.Unlinked dir (n :: names)) : fs.Unlinked (dir ++ [n]) names := by
  intro way hway
  have hlonger := h (n :: way) (List.cons_prefix_cons.mpr ⟨rfl, hway⟩)
  rwa [List.append_cons] at hlonger

lemma turn_name {n : String} (hn : isDotted n = false)
    (h : ∀ target, fs.root.at? (dir ++ [n]) ≠ some (.link target)) :
    fs.turn dir n = .blocked ∨ fs.turn dir n = .missing ∨ fs.turn dir n = .go (dir ++ [n]) := by
  obtain ⟨⟨hempty, hdot⟩, hup⟩ : (n ≠ "" ∧ n ≠ ".") ∧ n ≠ ".." := by simpa [isDotted] using hn
  rw [turn]
  split
  next =>
    simp only [hempty, hdot, hup, decide_false, Bool.or_self, Bool.false_eq_true, if_false]
    split
    next => exact Or.inr (Or.inl rfl)
    next target hlink => exact absurd hlink (h target)
    next => exact Or.inr (Or.inr rfl)
  next => exact Or.inl rfl

lemma follow_unlinked (hnames : ∀ n ∈ names, isDotted n = false) (h : fs.Unlinked dir names)
    (hops hops' : Nat) :
    fs.follow hops dir names = fs.follow hops' dir names := by
  induction names generalizing dir with
  | nil => rw [follow, follow]
  | cons n names ih =>
    obtain ⟨hn, hnames⟩ := List.forall_mem_cons.mp hnames
    rw [follow_cons, follow_cons]
    rcases turn_name hn (h [n] (by simp)) with ht | ht | ht
    · rw [ht]
    · rw [ht]
    · rw [ht]
      exact ih hnames h.tail

lemma trail_unlinked (hnames : ∀ n ∈ names, isDotted n = false) (h : fs.Unlinked dir names)
    (hq : q ∈ fs.trail hops dir names) : ∃ way, way <+: names ∧ q = dir ++ way := by
  induction names generalizing dir with
  | nil =>
    rw [trail, List.mem_singleton] at hq
    exact ⟨[], List.prefix_rfl, by rw [hq, List.append_nil]⟩
  | cons n names ih =>
    obtain ⟨hn, hnames⟩ := List.forall_mem_cons.mp hnames
    rw [trail, List.mem_append] at hq
    rcases hq with hq | hq
    · simp only [looks, hn, Bool.false_eq_true, if_false, List.mem_cons, List.not_mem_nil, or_false] at hq
      rcases hq with rfl | rfl
      · exact ⟨[], List.nil_prefix, (List.append_nil q).symm⟩
      · exact ⟨[n], by simp, rfl⟩
    · rcases turn_name hn (h [n] (by simp)) with ht | ht | ht
      · simp [ht] at hq
      · simp [ht] at hq
      · rw [ht] at hq
        obtain ⟨way, hway, rfl⟩ := ih hnames h.tail hq
        exact ⟨n :: way, List.cons_prefix_cons.mpr ⟨rfl, hway⟩, (List.append_cons dir n way).symm⟩

lemma AgreesOutside.unlinked (h : fs.AgreesOutside hidden fs')
    (hclear : ∀ way, way <+: names → ¬hidden (dir ++ way)) (hu : fs.Unlinked dir names) :
    fs'.Unlinked dir names := by
  intro way hway target
  obtain ⟨es, es', _, hes'⟩ | ⟨hsame, _⟩ := (h.alike _ (hclear way hway)).cases
  · rw [hes']
    simp
  · rw [hsame]
    exact hu way hway target

end Unlinked

section Read

variable {path : String}

lemma node_of_found (h : fs.locate path = .ok (.found q)) :
    fs.node path = (fs.root.at? q).elim (.error .notFound) fun n => .ok (q, n) := by
  rw [node, h]
  cases hnode : fs.root.at? q <;> simp only [bind, Except.bind, hnode, Option.elim]

lemma read_of_file {contents : ByteArray} {text : String} (h : fs.node path = .ok (q, .file contents))
    (htext : String.fromUTF8? contents = some text) : fs.read path = .ok text := by
  simp only [read, h, bind, Except.bind, htext]

lemma read_congr (hlocate : fs'.locate path = fs.locate path)
    (hfound : ∀ q, fs.locate path = .ok (.found q) → Alike (fs.root.at? q) (fs'.root.at? q)) :
    fs'.read path = fs.read path ∧ fs'.isFile path = fs.isFile path := by
  rw [read, read, isFile, isFile]
  cases hplace : fs.locate path with
  | error e =>
    rw [node, node, hlocate, hplace]
    exact ⟨rfl, rfl⟩
  | ok place =>
    cases place with
    | vacant =>
      rw [node, node, hlocate, hplace]
      exact ⟨rfl, rfl⟩
    | found q =>
      rw [node_of_found hplace, node_of_found (hlocate.trans hplace)]
      obtain ⟨es, es', hes, hes'⟩ | ⟨hsame, _⟩ := (hfound q hplace).cases
      · rw [hes, hes']
        exact ⟨rfl, rfl⟩
      · rw [hsame]
        exact ⟨rfl, rfl⟩

lemma AgreesOutside.read_of_clear (h : fs.AgreesOutside hidden fs')
    (hclear : ∀ q ∈ fs.trail 40 fs.here (parts path), ¬hidden q) :
    fs'.read path = fs.read path ∧ fs'.isFile path = fs.isFile path := by
  have hfollow := h.follow_eq hclear
  refine read_congr ?_ ?_
  · rw [locate, locate, h.here_eq, hfollow]
  · intro q hq
    rw [locate] at hq
    split at hq
    · cases hq
    next => exact h.alike q (hclear q (leads_of_follow hq).mem_trail)

lemma AgreesOutside.read_of_unlinked (h : fs.AgreesOutside hidden fs') {p : List String} {r : String}
    (hp : fs.locate path = .ok (.found p)) (hp' : fs'.locate path = .ok (.found p))
    (hnames : ∀ n ∈ parts r, isDotted n = false) (hclear : ∀ way, way <+: parts r → ¬hidden (p ++ way))
    (hu : fs.Unlinked p (parts r)) : fs'.read (Path.join path r) = fs.read (Path.join path r) ∧
      fs'.isFile (Path.join path r) = fs.isFile (Path.join path r) := by
  obtain ⟨left, hleft⟩ := locate_join hp
  obtain ⟨left', hleft'⟩ := locate_join hp'
  have htrail : ∀ q ∈ fs.trail left p (parts r), ¬hidden q := by
    intro q hq
    obtain ⟨way, hway, rfl⟩ := trail_unlinked hnames hu hq
    exact hclear way hway
  refine read_congr ?_ ?_
  · rw [hleft, hleft', follow_unlinked hnames (h.unlinked hclear hu) left' left, h.follow_eq htrail]
  · intro q hq
    rw [hleft] at hq
    exact h.alike q (htrail q (leads_of_follow hq).mem_trail)

end Read

end FileSystem

end CallAtlas
