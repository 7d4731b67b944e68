/-
Unix paths as Rust's `std::path` reads them: a path is a string, compared and
walked by its components.  Lexical resolution of `.` and `..` is a stack walk,
and containment below a root is decided by how far a relative path climbs.
-/
import PiCluster.Lib.Text

namespace UnixPath

open Text

inductive Component where
  | rootDir
  | curDir
  | parentDir
  | normal (name : Str)
deriving DecidableEq, Repr

/-- The component a piece between two separators stands for.  Empty pieces and
`.` pieces are skipped. -/
def pieceComponent (piece : Str) : Option Component :=
  if piece = [] ∨ piece = ['.'] then none
  else if piece = ['.', '.'] then some .parentDir
  else some (.normal piece)

def hasRoot (path : Str) : Bool := path.head? == some '/'

/-- The components of a path after its root, if any. -/
def bodyComponents (path : Str) : List Component :=
  (path.splitOn '/').filterMap pieceComponent

/-- `Path::components`.  A `.` piece is kept only at the head of a relative
path. -/
def components (path : Str) : List Component :=
  if hasRoot path then .rootDir :: bodyComponents path
  else if (path.splitOn '/').head? = some ['.'] then .curDir :: bodyComponents path
  else bodyComponents path

/-- Equality of `Path` values. -/
def pathEq (left right : Str) : Bool := components left == components right

/-- `Path::file_name`. -/
def fileName (path : Str) : Option Str :=
  match (components path).getLast? with
  | some (.normal name) => some name
  | _ => none

/-- `Path::ends_with`. -/
def pathEndsWith (path child : Str) : Bool :=
  (components child).isSuffixOf (components path)

/-- `Path::join`: an absolute argument replaces the base. -/
def join (base path : Str) : Str :=
  if hasRoot path then path
  else if base = [] ∨ base.getLast? = some '/' then base ++ path
  else base ++ '/' :: path

/-- One component of a lexical walk over the stack of directory names. -/
def resolveStep (stack : List Str) : Component → List Str
  | .rootDir => []
  | .curDir => stack
  | .parentDir => stack.dropLast
  | .normal name => stack ++ [name]

/-- The names left after lexical resolution of `.` and `..` from the root. -/
def resolve (path : Str) : List Str := (components path).foldl resolveStep []

/-- Containment of one absolute path below another after resolution. -/
def Inside (root path : Str) : Prop := resolve root <+: resolve path

instance (root path : Str) : Decidable (Inside root path) :=
  inferInstanceAs (Decidable (_ <+: _))

/-- The normal form of a relative path: how many levels it climbs above its
start, and the names it then descends into. -/
structure Climb where
  up : Nat
  names : List Str
deriving DecidableEq, Repr

def climbStep (climb : Climb) : Component → Climb
  | .rootDir => climb
  | .curDir => climb
  | .parentDir =>
      if climb.names = [] then ⟨climb.up + 1, []⟩
      else ⟨climb.up, climb.names.dropLast⟩
  | .normal name => ⟨climb.up, climb.names ++ [name]⟩

def climb (parts : List Component) : Climb := parts.foldl climbStep ⟨0, []⟩

/-- Where a stack ends up after a walk with normal form `climb`. -/
def Climb.apply (climb : Climb) (stack : List Str) : List Str :=
  stack.take (stack.length - climb.up) ++ climb.names

theorem resolveStep_apply (stack : List Str) (part : Component)
    (hpart : part ≠ .rootDir) (climb : Climb) :
    resolveStep (climb.apply stack) part = (climbStep climb part).apply stack := by
  cases part with
  | rootDir => exact absurd rfl hpart
  | curDir => rfl
  | normal name => simp [resolveStep, climbStep, Climb.apply]
  | parentDir =>
      by_cases hnames : climb.names = []
      · simp only [resolveStep, climbStep, Climb.apply, hnames, ↓reduceIte,
          List.append_nil, List.dropLast_eq_take, List.length_take,
          List.take_take]
        congr 1
        omega
      · simp [resolveStep, climbStep, Climb.apply, hnames,
          List.dropLast_append_of_ne_nil]

/-- A walk without a root component only depends on the stack through the
normal form of the walk. -/
theorem foldl_resolveStep (stack : List Str) (parts : List Component)
    (hparts : Component.rootDir ∉ parts) :
    parts.foldl resolveStep stack = (climb parts).apply stack := by
  induction parts using List.reverseRecOn with
  | nil => simp [climb, Climb.apply]
  | append_singleton init part ih =>
      simp only [List.mem_append, List.mem_singleton, not_or] at hparts
      have hclimb : climb (init ++ [part]) = climbStep (climb init) part := by
        simp [climb, List.foldl_append]
      rw [List.foldl_append, ih hparts.1, hclimb]
      exact resolveStep_apply stack part (Ne.symm hparts.2) (climb init)

/-- The walk ends below its start exactly when the names it climbed over are
the ones it descends into first. -/
theorem prefix_climb_apply_iff (stack : List Str) (climb : Climb) :
    stack <+: climb.apply stack ↔
      stack.drop (stack.length - climb.up) <+: climb.names := by
  have hsplit := List.take_append_drop (stack.length - climb.up) stack
  constructor
  · intro hstarts
    rw [Climb.apply] at hstarts
    nth_rewrite 1 [← hsplit] at hstarts
    exact (List.prefix_append_right_inj _).mp hstarts
  · intro hstarts
    rw [Climb.apply]
    nth_rewrite 1 [← hsplit]
    exact (List.prefix_append_right_inj _).mpr hstarts

theorem rootDir_not_mem_bodyComponents (path : Str) :
    Component.rootDir ∉ bodyComponents path := by
  simp only [bodyComponents, List.mem_filterMap, not_exists, not_and]
  intro piece _ hpiece
  unfold pieceComponent at hpiece
  split at hpiece
  · simp at hpiece
  · split at hpiece <;> simp at hpiece

@[simp] theorem bodyComponents_nil : bodyComponents [] = [] := by
  decide

/-- A separator splits the components of a path. -/
theorem bodyComponents_append_sep (left right : Str) :
    bodyComponents (left ++ '/' :: right) =
      bodyComponents left ++ bodyComponents right := by
  simp only [bodyComponents, List.splitOn_eq_splitOnP]
  rw [List.splitOnP_append_cons left right (by simp), List.filterMap_append]

theorem hasRoot_append {base : Str} (hbase : hasRoot base = true) (rest : Str) :
    hasRoot (base ++ rest) = true := by
  cases base with
  | nil => simp [hasRoot] at hbase
  | cons head tail => simpa [hasRoot] using hbase

theorem components_of_hasRoot {path : Str} (hpath : hasRoot path = true) :
    components path = .rootDir :: bodyComponents path := by
  simp [components, hpath]

/-- Joining a relative path below an absolute one appends its components. -/
theorem components_join {base path : Str} (hbase : hasRoot base = true)
    (hpath : hasRoot path = false) :
    components (join base path) = components base ++ bodyComponents path := by
  have hne : base ≠ [] := by
    rintro rfl
    simp [hasRoot] at hbase
  by_cases hlast : base.getLast? = some '/'
  · -- the separator is already the last character of the base
    obtain ⟨init, rfl⟩ : ∃ init, base = init ++ ['/'] := by
      obtain ⟨init, heq⟩ := List.getLast?_eq_some_iff.mp hlast
      exact ⟨init, heq⟩
    have hjoin : join (init ++ ['/']) path = init ++ '/' :: path := by
      simp [join, hpath]
    rw [hjoin, components_of_hasRoot hbase, bodyComponents_append_sep init [],
      components_of_hasRoot, bodyComponents_append_sep]
    · simp
    · simpa using hasRoot_append hbase path
  · have hjoin : join base path = base ++ '/' :: path := by
      simp [join, hpath, hne, hlast]
    rw [hjoin, components_of_hasRoot hbase,
      components_of_hasRoot (hasRoot_append hbase _), bodyComponents_append_sep]
    simp

/-- Lexical containment of a joined path, decided by the climb of the relative
part and the names at the end of the root. -/
theorem inside_join_iff {root path : Str} (hroot : hasRoot root = true)
    (hpath : hasRoot path = false) :
    Inside root (join root path) ↔
      (resolve root).drop
          ((resolve root).length - (climb (bodyComponents path)).up) <+:
        (climb (bodyComponents path)).names := by
  have hwalk : resolve (join root path) =
      (climb (bodyComponents path)).apply (resolve root) := by
    rw [resolve, components_join hroot hpath, List.foldl_append]
    exact foldl_resolveStep _ _ (rootDir_not_mem_bodyComponents path)
  rw [Inside, hwalk, prefix_climb_apply_iff]

theorem pieceComponent_normal {piece name : Str}
    (hpiece : pieceComponent piece = some (.normal name)) :
    piece = name ∧ name ≠ [] := by
  unfold pieceComponent at hpiece
  split at hpiece
  · simp at hpiece
  · rename_i hskip
    split at hpiece
    · simp at hpiece
    · simp only [Option.some.injEq, Component.normal.injEq] at hpiece
      subst hpiece
      exact ⟨rfl, fun hnil => hskip (Or.inl hnil)⟩

theorem normal_mem_components {path name : Str}
    (hmem : Component.normal name ∈ components path) : name ≠ [] := by
  have hbody : Component.normal name ∈ bodyComponents path := by
    unfold components at hmem
    split at hmem
    · simpa using hmem
    · split at hmem
      · simpa using hmem
      · exact hmem
  simp only [bodyComponents, List.mem_filterMap] at hbody
  obtain ⟨piece, _, hpiece⟩ := hbody
  exact (pieceComponent_normal hpiece).2

theorem fileName_ne_nil {path name : Str} (hname : fileName path = some name) :
    name ≠ [] := by
  unfold fileName at hname
  split at hname
  · rename_i last hlast
    simp only [Option.some.injEq] at hname
    subst hname
    exact normal_mem_components (List.mem_of_getLast? hlast)
  · simp at hname

/-- The last piece of a path is its file name when it is an ordinary name. -/
theorem fileName_append_sep {dir name : Str} (hsep : '/' ∉ name) (hne : name ≠ [])
    (hdot : name ≠ ['.']) (hdotdot : name ≠ ['.', '.']) :
    fileName (dir ++ '/' :: name) = some name := by
  have hpiece : bodyComponents name = [.normal name] := by
    have hsplit : name.splitOn '/' = [name] := by
      rw [List.splitOn_eq_splitOnP]
      apply List.splitOnP_eq_singleton
      intro c hc
      have : c ≠ '/' := fun heq => hsep (heq ▸ hc)
      simp [this]
    simp [bodyComponents, hsplit, pieceComponent, hne, hdot, hdotdot]
  have hbody : bodyComponents (dir ++ '/' :: name) =
      bodyComponents dir ++ [.normal name] := by
    rw [bodyComponents_append_sep, hpiece]
  obtain ⟨init, hinit⟩ : ∃ init, components (dir ++ '/' :: name) =
      init ++ [.normal name] := by
    unfold components
    rw [hbody]
    split
    · exact ⟨.rootDir :: bodyComponents dir, rfl⟩
    · split
      · exact ⟨.curDir :: bodyComponents dir, rfl⟩
      · exact ⟨bodyComponents dir, rfl⟩
  simp [fileName, hinit]

/-- A name of a directory entry. -/
structure PlainName (name : Str) : Prop where
  nonempty : name ≠ []
  noSep : '/' ∉ name
  notCur : name ≠ ['.']
  notParent : name ≠ ['.', '.']

theorem PlainName.pieceComponent_eq {name : Str} (hplain : PlainName name) :
    pieceComponent name = some (.normal name) := by
  rw [pieceComponent, if_neg (not_or.mpr ⟨hplain.nonempty, hplain.notCur⟩),
    if_neg hplain.notParent]

theorem filterMap_pieceComponent {names : List Str} (hplain : ∀ name ∈ names, PlainName name) :
    names.filterMap pieceComponent = names.map .normal := by
  induction names with
  | nil => rfl
  | cons name rest ih =>
      obtain ⟨hname, hrest⟩ := List.forall_mem_cons.mp hplain
      rw [List.filterMap_cons_some hname.pieceComponent_eq, ih hrest, List.map_cons]

theorem hasRoot_intercalate {names : List Str} (hplain : ∀ name ∈ names, PlainName name) :
    hasRoot (['/'].intercalate names) = false := by
  cases names with
  | nil => rfl
  | cons first rest =>
      obtain ⟨hfirst, -⟩ := List.forall_mem_cons.mp hplain
      obtain ⟨c, tail, rfl⟩ := List.exists_cons_of_ne_nil hfirst.nonempty
      have hhead : (['/'].intercalate ((c :: tail) :: rest)).head? = some c := by
        cases rest with
        | nil => rfl
        | cons second rest => rw [List.intercalate_cons_cons]; rfl
      have hc : c ≠ '/' := fun heq => hfirst.noSep (heq ▸ List.mem_cons_self)
      rw [hasRoot, hhead]
      simpa using hc

theorem foldl_resolveStep_normal (names stack : List Str) :
    (names.map Component.normal).foldl resolveStep stack = stack ++ names := by
  induction names generalizing stack with
  | nil => exact (List.append_nil stack).symm
  | cons name rest ih =>
      rw [List.map_cons, List.foldl_cons, ih, resolveStep, List.append_assoc]
      rfl

/-- A relative path of plain names leads to these names below the root. -/
theorem resolve_join_intercalate {root : Str} (hroot : hasRoot root = true)
    {names : List Str} (hne : names ≠ []) (hplain : ∀ name ∈ names, PlainName name) :
    resolve (join root (['/'].intercalate names)) = resolve root ++ names := by
  have hbody : bodyComponents (['/'].intercalate names) = names.map .normal := by
    rw [bodyComponents, List.splitOn_intercalate '/' (fun name hname => (hplain name hname).noSep)
      hne, filterMap_pieceComponent hplain]
  rw [resolve, components_join hroot (hasRoot_intercalate hplain), List.foldl_append, hbody,
    foldl_resolveStep_normal]
  rfl

end UnixPath
