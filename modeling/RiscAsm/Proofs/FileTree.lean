import Mathlib.Data.List.Flatten
import RiscAsm.FileTree
import RiscAsm.Proofs.Result
import RiscAsm.Proofs.Text.Pieces

/-!
# Theory of file trees

A path is followed name by name, and every name leads from a directory to a node.  Putting a file
where no directory stands therefore changes no way through the tree: what was put is read back
(`Writable.read_write`), and all other nodes stay (`Writable.exists_write`).  Normalizing a path
drops the names that stay where they are, so a file is read and written at the normal path as at the
path itself (`read_normalize`, `Writable.write_normalize`).
-/

namespace RiscAsm

/-! ## Normal paths -/

namespace Path

/-- A name that does not stay where it is. -/
def moves (name : Text) : Bool := !name.isEmpty && name != ['.']

/-- The names of a path that normalizing keeps. -/
def kept (path : Text) : List Text := (names path).filter moves

theorem names_replicate (n : Nat) (s : Text) :
    names (List.replicate n '/' ++ s) = List.replicate n [] ++ names s := by
  induction n with
  | zero => rfl
  | succ n ih =>
      rw [List.replicate_succ, List.replicate_succ, List.cons_append, List.cons_append, ← ih]
      exact List.splitOn_append_cons_self [] _

/-- A path that starts with a slash has an empty name. -/
theorem nil_mem_names {s : Text} (h : s.head? = some '/') : [] ∈ names s := by
  obtain ⟨rest, rfl⟩ := List.head?_eq_some_iff.mp h
  have hnames := names_replicate 1 rest
  simp only [List.replicate_one, List.singleton_append] at hnames
  rw [hnames]
  exact List.mem_cons_self

/-- A path that a slash ends has an empty name at its end. -/
theorem getLast?_names {s : Text} (h : s.getLast? = some '/') : (names s).getLast? = some [] := by
  obtain ⟨front, rfl⟩ := List.getLast?_eq_some_iff.mp h
  rw [names, List.splitOn_append_cons_self, List.splitOn_nil, List.getLast?_concat]

/-- A path is its leading slashes and the rest.  Normalizing keeps some of these slashes, and not
none of some. -/
theorem exists_rootMark (path : Text) :
    ∃ k n rest, path = List.replicate n '/' ++ rest ∧ rest.head? ≠ some '/' ∧
      rootMark path = List.replicate k '/' ∧ k ≤ n ∧ (k = 0 ↔ n = 0) := by
  obtain ⟨n, hn⟩ : ∃ n, path.takeWhile (· == '/') = List.replicate n '/' :=
    ⟨_, List.eq_replicate_of_mem fun c hc => by simpa using List.mem_takeWhile_imp hc⟩
  have hrest : (path.dropWhile (· == '/')).head? ≠ some '/' := by
    intro hhead
    have hnot := List.head?_dropWhile_not (· == '/') path
    rw [hhead] at hnot
    simp at hnot
  have hpath : path = List.replicate n '/' ++ path.dropWhile (· == '/') := by
    rw [← hn, List.takeWhile_append_dropWhile]
  rw [rootMark, hn]
  -- up to two slashes stay, and more become one
  match n with
  | 0 => exact ⟨0, 0, _, hpath, hrest, rfl, Nat.le_refl 0, Iff.rfl⟩
  | 1 => exact ⟨1, 1, _, hpath, hrest, rfl, Nat.le_refl 1, Iff.rfl⟩
  | 2 => exact ⟨2, 2, _, hpath, hrest, rfl, Nat.le_refl 2, Iff.rfl⟩
  | n + 3 => exact ⟨1, n + 3, _, hpath, hrest, rfl, by omega, by omega⟩

theorem of_mem_kept {path name : Text} (h : name ∈ kept path) :
    moves name = true ∧ name ≠ [] ∧ '/' ∉ name := by
  obtain ⟨hname, hmoves⟩ := List.mem_filter.mp h
  refine ⟨hmoves, ?_, Text.not_mem_of_mem_splitOn hname⟩
  rintro rfl
  cases hmoves

/-- The kept names, joined with slashes, have exactly these names. -/
theorem names_join_kept {path : Text} (h : kept path ≠ []) :
    names (Text.join ['/'] (kept path)) = kept path :=
  List.splitOn_intercalate '/' (fun _ hname => (of_mem_kept hname).2.2) h

theorem normalize_def (path : Text) :
    normalize path = match rootMark path ++ Text.join ['/'] (kept path) with
      | [] => ['.']
      | normal => normal := rfl

theorem normalize_ne_nil (path : Text) : normalize path ≠ [] := by
  rw [normalize_def]
  split
  · exact List.cons_ne_nil _ _
  · rename_i hne
    exact hne

theorem normalize_eq {path : Text} (h : kept path ≠ []) :
    normalize path = rootMark path ++ Text.join ['/'] (kept path) := by
  have hne : rootMark path ++ Text.join ['/'] (kept path) ≠ [] := by
    intro hnil
    obtain ⟨name, rest, hkept⟩ := List.exists_cons_of_ne_nil h
    have hname : name ∈ kept path := hkept ▸ List.mem_cons_self
    have hinfix : name <:+: Text.join ['/'] (kept path) := Text.infix_join hname
    rw [(List.append_eq_nil_iff.mp hnil).2] at hinfix
    exact (of_mem_kept hname).2.1 (List.infix_nil.mp hinfix)
  rw [normalize_def]
  split
  · rename_i hnil
    exact absurd hnil hne
  · rfl

/-- A normal path starts as the path does, and has its kept names after empty ones. -/
theorem names_normalize {path : Text} (h : kept path ≠ []) :
    ∃ k, names (normalize path) = List.replicate k [] ++ kept path ∧
      (k ≠ 0 → path.head? = some '/') ∧
      ((normalize path).head? = some '/' ↔ path.head? = some '/') := by
  obtain ⟨k, n, rest, hpath, hrest, hroot, -, hzero⟩ := exists_rootMark path
  have hhead : path.head? = some '/' ↔ n ≠ 0 := by
    rw [hpath]
    cases n with
    | zero => simpa using hrest
    | succ n => simp [List.replicate_succ]
  rw [normalize_eq h, hroot]
  refine ⟨k, ?_, ?_, ?_⟩
  · rw [names_replicate, names_join_kept h]
  · intro hk
    rw [hhead]
    omega
  · rw [hhead]
    cases k with
    | zero =>
        have hfalse : (Text.join ['/'] (kept path)).head? ≠ some '/' := by
          intro hslash
          have hnil := nil_mem_names hslash
          rw [names_join_kept h] at hnil
          exact (of_mem_kept hnil).2.1 rfl
        simp [hfalse, hzero.mp rfl]
    | succ k =>
        have hn : n ≠ 0 := by omega
        simp [List.replicate_succ, hn]

/-- Fewer texts are joined to a part of the text. -/
theorem join_sublist {few all : List Text} (h : few.Sublist all) :
    (Text.join ['/'] few).Sublist (Text.join ['/'] all) := by
  have hcons : ∀ (name : Text) (rest : List Text), rest ≠ [] →
      Text.join ['/'] (name :: rest) = name ++ (['/'] ++ Text.join ['/'] rest) := by
    intro name rest hne
    obtain ⟨next, rest, rfl⟩ := List.exists_cons_of_ne_nil hne
    rw [Text.join, List.intercalate_cons_cons, List.append_assoc, ← Text.join]
  induction h with
  | slnil => exact List.Sublist.refl _
  | @cons few all name h ih =>
      by_cases hall : all = []
      · rw [hall, List.sublist_nil] at h
        rw [h]
        exact List.nil_sublist _
      · rw [hcons name all hall]
        exact ih.trans ((List.sublist_append_right _ _).trans (List.sublist_append_right _ _))
  | @cons_cons few all name h ih =>
      by_cases hfew : few = []
      · rw [hfew]
        by_cases hall : all = []
        · rw [hall]
        · rw [hcons name all hall, Text.join, List.intercalate_singleton]
          exact List.sublist_append_left _ _
      · have hall : all ≠ [] := by
          rintro rfl
          exact hfew (List.sublist_nil.mp h)
        rw [hcons name few hfew, hcons name all hall]
        exact (List.Sublist.refl _).append ((List.Sublist.refl _).append ih)

/-- Normalizing a path only drops characters. -/
theorem normalize_sublist {path : Text} (h : kept path ≠ []) :
    (normalize path).Sublist path := by
  obtain ⟨k, n, rest, hpath, -, hroot, hle, -⟩ := exists_rootMark path
  have hkept : kept path = kept rest := by
    rw [kept, hpath, names_replicate, List.filter_append, List.filter_replicate]
    rfl
  have hjoin : Text.join ['/'] (names rest) = rest := List.intercalate_splitOn '/'
  have hsub : (Text.join ['/'] (kept path)).Sublist rest := by
    rw [hkept]
    nth_rewrite 2 [← hjoin]
    exact join_sublist List.filter_sublist
  rw [normalize_eq h, hroot]
  nth_rewrite 2 [hpath]
  exact (List.replicate_sublist_replicate '/').mpr hle |>.append hsub

end Path

namespace FileTree

variable {t : FileTree} {path : Text}

/-! ## Nodes -/

/-- A look-up does not find what was filtered out, and is not changed by it. -/
theorem lookup_filter_ne {nodes : List (Place × Node)} {place p : Place} (h : p ≠ place) :
    (nodes.filter fun entry => entry.1 != place).lookup p = nodes.lookup p := by
  induction nodes with
  | nil => rfl
  | cons entry nodes ih =>
      obtain ⟨here, node⟩ := entry
      by_cases hhere : here = place
      · have hne : (p == here) = false := by
          rw [beq_eq_false_iff_ne, hhere]
          exact h
        rw [List.filter_cons_of_neg (by simp [hhere]), ih, List.lookup_cons, hne]
      · rw [List.filter_cons_of_pos (by simpa using hhere), List.lookup_cons, List.lookup_cons, ih]

/-- Putting a node at a place changes this place only. -/
theorem node?_set {place : Place} (hplace : place ≠ []) (node : Node) (p : Place) :
    (t.set place node).node? p = if p = place then some node else t.node? p := by
  rw [node?, node?, set]
  by_cases hp : p = place
  · rw [if_pos hp, hp, if_neg (by simpa using hplace), List.lookup_cons_self]
  · have hne : (p == place) = false := beq_eq_false_iff_ne.mpr hp
    rw [if_neg hp, List.lookup_cons, hne]
    simp only [lookup_filter_ne hp]

/-- A place without a directory is not the root. -/
theorem ne_nil_of_node? {place : Place} (h : t.node? place ≠ some .directory) : place ≠ [] := by
  rintro rfl
  exact h rfl

/-! ## Steps -/

theorem child_eq_ok {here place : Place} {name : Text} :
    t.child here name = .ok place ↔
      t.node? here = some .directory ∧ (Utf8.encode name).length ≤ nameLimit ∧
        pointed here name = place := by
  rw [child]
  by_cases hhere : t.node? here = some .directory
  · by_cases hname : nameLimit < (Utf8.encode name).length
    · simp [hhere, hname, Nat.not_le.mpr hname]
    · simp [hhere, hname, Nat.le_of_not_lt hname]
  · simp [hhere]

theorem step_eq_ok {here place : Place} {name : Text} :
    t.step here name = .ok place ↔
      t.child here name = .ok place ∧ (t.node? place).isSome = true := by
  rw [step, Result.bind_eq_ok]
  constructor
  · rintro ⟨a, hchild, hnode⟩
    split at hnode
    · rename_i hsome
      obtain rfl := Result.pure_eq_ok.mp hnode
      exact ⟨hchild, hsome⟩
    · cases hnode
  · rintro ⟨hchild, hsome⟩
    exact ⟨place, hchild, by rw [if_pos hsome]; rfl⟩

/-- A name that does not move leads back to the same directory. -/
theorem child_of_not_moves {here place : Place} {name : Text} (hname : Path.moves name = false)
    (h : t.child here name = .ok place) : place = here := by
  obtain ⟨-, -, hpointed⟩ := child_eq_ok.mp h
  have hstay : (name.isEmpty || name == ['.']) = true := by
    rw [Path.moves] at hname
    cases hempty : name.isEmpty with
    | true => rfl
    | false => simpa [hempty] using hname
  rw [← hpointed, pointed, if_pos hstay]

/-- Only the names that move matter on the way. -/
theorem foldlM_step_filter {names : List Text} {here place : Place}
    (h : names.foldlM t.step here = .ok place) :
    (names.filter Path.moves).foldlM t.step here = .ok place := by
  induction names generalizing here with
  | nil => exact h
  | cons name names ih =>
      obtain ⟨next, hstep, hrest⟩ := Result.bind_eq_ok.mp h
      cases hname : Path.moves name with
      | false =>
          -- the name leads nowhere else, and the way goes on from the same directory
          obtain rfl := child_of_not_moves hname (step_eq_ok.mp hstep).1
          rw [List.filter_cons_of_neg (by simp [hname])]
          exact ih hrest
      | true =>
          rw [List.filter_cons_of_pos hname]
          exact Result.bind_eq_ok.mpr ⟨next, hstep, ih hrest⟩

/-- Empty names stay in a directory. -/
theorem foldlM_step_replicate {here : Place} (h : t.node? here = some .directory) (k : Nat) :
    (List.replicate k []).foldlM t.step here = .ok here := by
  have hstep : t.step here [] = .ok here :=
    step_eq_ok.mpr ⟨child_eq_ok.mpr ⟨h, Nat.zero_le _, rfl⟩, by rw [h]; rfl⟩
  induction k with
  | zero => rfl
  | succ k ih =>
      rw [List.replicate_succ]
      exact Result.bind_eq_ok.mpr ⟨here, hstep, ih⟩

/-- The way of a path is also that of its normal path: empty names from the root on, and then the
names that move. -/
theorem foldlM_step_normal {k : Nat} (hk : k ≠ 0 → path.head? = some '/') {names : List Text}
    {place : Place} (h : names.foldlM t.step (t.start path) = .ok place) :
    (List.replicate k [] ++ names.filter Path.moves).foldlM t.step (t.start path) = .ok place := by
  rw [List.foldlM_append]
  refine Result.bind_eq_ok.mpr ⟨t.start path, ?_, foldlM_step_filter h⟩
  cases k with
  | zero => rfl
  | succ k =>
      apply foldlM_step_replicate
      rw [start, hk (Nat.succ_ne_zero k)]
      rfl

section Set

variable {place : Place} (hplace : t.node? place ≠ some .directory) (content : List UInt8)

include hplace

/-- A name leads on from a directory as before when a file is put where no directory stands. -/
theorem child_set {here next : Place} {name : Text} (h : t.child here name = .ok next) :
    (t.set place (.file content)).child here name = .ok next := by
  obtain ⟨hhere, hrest⟩ := child_eq_ok.mp h
  refine child_eq_ok.mpr ⟨?_, hrest⟩
  rw [node?_set (ne_nil_of_node? hplace), if_neg, hhere]
  rintro rfl
  exact hplace hhere

/-- Putting a file where no directory stands leaves every way as it was. -/
theorem foldlM_step_set {names : List Text} {here last : Place}
    (h : names.foldlM t.step here = .ok last) :
    names.foldlM (t.set place (.file content)).step here = .ok last := by
  induction names generalizing here with
  | nil => exact h
  | cons name names ih =>
      obtain ⟨next, hstep, hrest⟩ := Result.bind_eq_ok.mp h
      obtain ⟨hchild, hsome⟩ := step_eq_ok.mp hstep
      refine Result.bind_eq_ok.mpr ⟨next, ?_, ih hrest⟩
      refine step_eq_ok.mpr ⟨child_set hplace content hchild, ?_⟩
      rw [node?_set (ne_nil_of_node? hplace)]
      split
      · rfl
      · exact hsome

end Set

/-! ## Reading -/

theorem checkPath_eq_ok :
    checkPath path = .ok () ↔
      '\x00' ∉ path ∧ path ≠ [] ∧ (Utf8.encode path).length ≤ pathLimit := by
  rw [checkPath]
  by_cases hnull : '\x00' ∈ path
  · simp [hnull]
  · by_cases hempty : path = []
    · simp [hempty]
    · by_cases hlength : pathLimit < (Utf8.encode path).length
      · simp [hnull, hempty, hlength, Nat.not_le.mpr hlength]
      · simp [hnull, hempty, hlength, Nat.le_of_not_lt hlength]

/-- A normal path can be looked up if the path can. -/
theorem checkPath_normalize (h : checkPath path = .ok ()) (hkept : Path.kept path ≠ []) :
    checkPath (Path.normalize path) = .ok () := by
  obtain ⟨hnull, -, hlength⟩ := checkPath_eq_ok.mp h
  have hsub := Path.normalize_sublist hkept
  refine checkPath_eq_ok.mpr ⟨fun hmem => hnull (hsub.subset hmem), Path.normalize_ne_nil path, ?_⟩
  exact Nat.le_trans (hsub.flatMap Utf8.encodeChar).length_le hlength

theorem start_normalize (t : FileTree) (hkept : Path.kept path ≠ []) :
    t.start (Path.normalize path) = t.start path := by
  obtain ⟨k, -, -, hhead⟩ := Path.names_normalize hkept
  rw [start, start]
  by_cases hslash : path.head? = some '/'
  · rw [hslash, hhead.mpr hslash]
  · have hnormal := mt hhead.mp hslash
    simp [hslash, hnormal]

theorem read_eq_ok {content : List UInt8} :
    t.read path = .ok content ↔ checkPath path = .ok () ∧
      ∃ place, (Path.names path).foldlM t.step (t.start path) = .ok place ∧
        t.node? place = some (.file content) := by
  rw [read, Result.bind_eq_ok]
  constructor
  · rintro ⟨place, hlocate, hnode⟩
    obtain ⟨⟨⟩, hcheck, hway⟩ := Result.bind_eq_ok.mp hlocate
    refine ⟨hcheck, place, hway, ?_⟩
    cases hfound : t.node? place with
    | none => simp [hfound] at hnode
    | some node =>
        cases node with
        | directory => simp [hfound] at hnode
        | file other =>
            simp only [hfound, Result.pure_eq_ok] at hnode
            rw [hnode]
  · rintro ⟨hcheck, place, hway, hnode⟩
    refine ⟨place, Result.bind_eq_ok.mpr ⟨(), hcheck, hway⟩, ?_⟩
    rw [hnode]
    rfl

/-- The path of a file leads to a node. -/
theorem exists_locate {content : List UInt8} (h : t.read path = .ok content) :
    ∃ place, t.locate path = .ok place := by
  obtain ⟨place, hlocate, -⟩ := Result.bind_eq_ok.mp h
  exact ⟨place, hlocate⟩

/-- A path to a file has a name that moves. -/
theorem kept_ne_nil_of_read {content : List UInt8} (h : t.read path = .ok content) :
    Path.kept path ≠ [] := by
  obtain ⟨-, place, hway, hfile⟩ := read_eq_ok.mp h
  intro hkept
  -- otherwise the file stands where the path starts, and that is a directory
  have hstart := foldlM_step_filter hway
  rw [← Path.kept, hkept] at hstart
  obtain rfl : t.start path = place := Except.ok.inj hstart
  obtain ⟨name, rest, hnames⟩ := List.exists_cons_of_ne_nil (List.splitOn_ne_nil '/' path)
  rw [Path.names, hnames] at hway
  obtain ⟨next, hstep, -⟩ := Result.bind_eq_ok.mp hway
  rw [(child_eq_ok.mp (step_eq_ok.mp hstep).1).1] at hfile
  cases hfile

/-- A file is read at the normal path as at the path. -/
theorem read_normalize {content : List UInt8} (h : t.read path = .ok content) :
    t.read (Path.normalize path) = .ok content := by
  have hkept := kept_ne_nil_of_read h
  obtain ⟨hcheck, place, hway, hfile⟩ := read_eq_ok.mp h
  obtain ⟨k, hnames, hk, -⟩ := Path.names_normalize hkept
  refine read_eq_ok.mpr ⟨checkPath_normalize hcheck hkept, place, ?_, hfile⟩
  rw [hnames, start_normalize t hkept]
  exact foldlM_step_normal hk hway

/-! ## Writing -/

/-- A file can be put at a path: the path can be looked up, it does not end as that of a directory,
and it leads to a place where no directory stands. -/
structure Writable (t : FileTree) (path : Text) : Prop where
  checked : checkPath path = .ok ()
  no_slash : path.getLast? ≠ some '/'
  leads : ∃ place, t.target path = .ok place ∧ t.node? place ≠ some .directory

/-- The target of a path without a slash at its end: the last name leads on from the directory to
which the names before it lead. -/
theorem target_eq_ok {place : Place} {front : List Text} {last : Text}
    (hslash : path.getLast? ≠ some '/') (hnames : Path.names path = front ++ [last]) :
    t.target path = .ok place ↔
      ∃ here, front.foldlM t.step (t.start path) = .ok here ∧ t.child here last = .ok place := by
  have hstrip : (path.reverse.dropWhile (· == '/')).reverse = path := by
    rw [List.getLast?_eq_head?_reverse] at hslash
    cases hpath : path.reverse with
    | nil => simpa using hpath
    | cons c rest =>
        rw [hpath] at hslash
        rw [List.dropWhile_cons_of_neg (by simpa using hslash), ← hpath, List.reverse_reverse]
  have hfinal : (path.getLast? == some '/') = false := beq_eq_false_iff_ne.mpr hslash
  rw [target, hstrip, hnames, List.dropLast_concat, List.getLast?_concat, Option.getD_some,
    Result.bind_eq_ok, hfinal]
  refine exists_congr fun here => and_congr_right fun _ => ?_
  by_cases hhere : t.node? here = some .directory
  · simp [hhere]
  · simp [hhere, child, throw, throwThe, MonadExceptOf.throw, bind, Except.bind]

/-- The last name of a path at which a file can be put moves. -/
theorem Writable.exists_place (h : t.Writable path) :
    ∃ front last here place, Path.names path = front ++ [last] ∧ Path.moves last = true ∧
      front.foldlM t.step (t.start path) = .ok here ∧ t.child here last = .ok place ∧
      t.target path = .ok place ∧ t.node? place ≠ some .directory := by
  obtain ⟨place, htarget, hplace⟩ := h.leads
  obtain ⟨front, last, hnames⟩ : ∃ front last, Path.names path = front ++ [last] :=
    (List.eq_nil_or_concat' _).resolve_left (List.splitOn_ne_nil '/' path)
  obtain ⟨here, hway, hchild⟩ := (target_eq_ok h.no_slash hnames).mp htarget
  refine ⟨front, last, here, place, hnames, ?_, hway, hchild, htarget, hplace⟩
  cases hmoves : Path.moves last with
  | true => rfl
  | false =>
      obtain rfl := child_of_not_moves hmoves hchild
      exact absurd (child_eq_ok.mp hchild).1 hplace

theorem write_of_target {place : Place} (hcheck : checkPath path = .ok ())
    (htarget : t.target path = .ok place) (hplace : t.node? place ≠ some .directory)
    (content : List UInt8) : t.write path content = .ok (t.set place (.file content)) := by
  rw [write]
  refine Result.bind_eq_ok.mpr ⟨(), hcheck, Result.bind_eq_ok.mpr ⟨place, htarget, ?_⟩⟩
  rw [if_neg hplace]
  rfl

/-- A file can be put at a writable path, and all other nodes stay. -/
theorem Writable.exists_write (h : t.Writable path) (content : List UInt8) :
    ∃ after, t.write path content = .ok after ∧
      ∀ place, t.target path ≠ .ok place → after.node? place = t.node? place := by
  obtain ⟨place, htarget, hplace⟩ := h.leads
  refine ⟨_, write_of_target h.checked htarget hplace content, ?_⟩
  intro other hother
  rw [node?_set (ne_nil_of_node? hplace), if_neg]
  rintro rfl
  exact hother htarget

/-- A file that is put at a path is read there. -/
theorem Writable.read_write (h : t.Writable path) {after : FileTree} {content : List UInt8}
    (hwrite : t.write path content = .ok after) : after.read path = .ok content := by
  obtain ⟨front, last, here, place, hnames, -, hway, hchild, htarget, hplace⟩ := h.exists_place
  obtain rfl : t.set place (.file content) = after := by
    rw [write_of_target h.checked htarget hplace] at hwrite
    exact Except.ok.inj hwrite
  have hnode : (t.set place (.file content)).node? place = some (.file content) := by
    rw [node?_set (ne_nil_of_node? hplace), if_pos rfl]
  refine read_eq_ok.mpr ⟨h.checked, place, ?_, hnode⟩
  -- the way to the last name is the one before, and the last name leads to the new file
  rw [hnames, List.foldlM_append]
  refine Result.bind_eq_ok.mpr ⟨here, foldlM_step_set hplace content hway, ?_⟩
  refine Result.bind_eq_ok.mpr ⟨place, step_eq_ok.mpr ⟨?_, by rw [hnode]; rfl⟩, rfl⟩
  exact child_set hplace content hchild

/-- A file is put at the normal path as at the path. -/
theorem Writable.write_normalize (h : t.Writable path) (content : List UInt8) :
    t.write (Path.normalize path) content = t.write path content := by
  obtain ⟨front, last, here, place, hnames, hlast, hway, hchild, htarget, hplace⟩ :=
    h.exists_place
  -- the last name is kept, so it is also the last one of the normal path
  have hfilter : Path.kept path = front.filter Path.moves ++ [last] := by
    rw [Path.kept, hnames, List.filter_append, List.filter_cons_of_pos hlast, List.filter_nil]
  have hkept : Path.kept path ≠ [] := by
    rw [hfilter]
    exact List.concat_ne_nil _ _
  obtain ⟨k, hnormal, hk, -⟩ := Path.names_normalize hkept
  rw [hfilter, ← List.append_assoc] at hnormal
  have hslash : (Path.normalize path).getLast? ≠ some '/' := by
    intro hslash
    have hnil := Path.getLast?_names hslash
    rw [hnormal, List.getLast?_concat, Option.some.injEq] at hnil
    rw [hnil] at hlast
    cases hlast
  have hsame : t.target (Path.normalize path) = .ok place := by
    rw [target_eq_ok hslash hnormal, start_normalize t hkept]
    exact ⟨here, foldlM_step_normal hk hway, hchild⟩
  rw [write_of_target h.checked htarget hplace,
    write_of_target (checkPath_normalize h.checked hkept) hsame hplace]

end FileTree

end RiscAsm
