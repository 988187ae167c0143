import CommandGrammar.Grammar.Build
import CommandGrammar.Proofs.Outline

/-!
# What a tree of nodes depicts

A tree depicts a grammar if its flags, groups and arguments are those that are described, in the
same order, with the policy of their group for members, and if a flag has a store of its own exactly
where something may follow it. On a way through the tree one meets every node once, under its path:
the keys of the flags above it, then its own key or name, or the keys of the members of a group. The
texts of these paths can be told from the grammar alone.
-/

namespace CommandGrammar

/-! ## The tree of a grammar -/

/-- The argument that is described. -/
def ArgSpec.positional (files : Files) (a : ArgSpec) : Positional where
  name := a.name
  policy := a.policy
  description := a.description
  pipeline := a.converter.convert files

/-- The flag that is described, outside groups or in one, with or without a store of its own. -/
def FlagSpec.node (spec : FlagSpec) (policy : Policy) (group : Option GroupId)
    (children : Option StoreId) : Flag where
  key := spec.key
  policy := policy
  description := spec.description
  children := children
  group := group
  trigger := none

mutual

/-- A flag is described, with all that may follow it. -/
def Twig.Depicts (files : Files) (policy : Policy) (group : Option GroupId) : Twig → FlagSpec → Prop
  | .simple _ flag, spec => spec.isComplex = false ∧ flag = spec.node policy group none
  | .complex _ flag args branches, spec => spec.isComplex = true ∧
    (∃ child, flag = spec.node policy group (some child)) ∧
      args.map (·.2) = spec.args.map (·.positional files) ∧
        Branch.AllDepict files branches spec.flags

def Branch.Depicts (files : Files) : Branch → FlagEntry → Prop
  | .flag twig, .flag policy spec => twig.Depicts files policy none spec
  | .group id policy members, .group policy' specs =>
    policy = policy' ∧ Twig.AllDepict files policy (some id) members specs
  | _, _ => False

def Branch.AllDepict (files : Files) : List Branch → List FlagEntry → Prop
  | [], [] => True
  | b :: bs, e :: es => b.Depicts files e ∧ Branch.AllDepict files bs es
  | _, _ => False

def Twig.AllDepict (files : Files) (policy : Policy) (group : Option GroupId) :
    List Twig → List FlagSpec → Prop
  | [], [] => True
  | t :: ts, spec :: specs =>
    t.Depicts files policy group spec ∧ Twig.AllDepict files policy group ts specs
  | _, _ => False

end

/-- The flag of a tree has what is described, whatever follows it. -/
theorem Twig.Depicts.exists_node {files : Files} {policy : Policy} {group : Option GroupId}
    {t : Twig} {spec : FlagSpec} (h : t.Depicts files policy group spec) :
    ∃ children, t.flag = spec.node policy group children := by
  cases t with
  | simple id flag =>
    rw [Twig.Depicts] at h
    exact ⟨none, h.2⟩
  | complex id flag args branches =>
    rw [Twig.Depicts] at h
    obtain ⟨-, ⟨child, rfl⟩, -⟩ := h
    exact ⟨some child, rfl⟩

theorem Twig.Depicts.flag_key {files : Files} {policy : Policy} {group : Option GroupId} {t : Twig}
    {spec : FlagSpec} (h : t.Depicts files policy group spec) : t.flag.key = spec.key := by
  obtain ⟨children, h⟩ := h.exists_node
  rw [h]
  rfl

theorem Twig.AllDepict.keys {files : Files} {policy : Policy} {group : Option GroupId} :
    ∀ {ts : List Twig} {specs : List FlagSpec}, Twig.AllDepict files policy group ts specs →
      ts.map (·.flag.key) = specs.map (·.key)
  | [], [], _ => rfl
  | t :: ts, spec :: specs, h => by
    rw [Twig.AllDepict] at h
    rw [List.map_cons, List.map_cons, h.1.flag_key, h.2.keys]

/-! ## A way through the tree -/

inductive Handle where
  | flag (id : FlagId)
  | arg (id : ArgId)
  | group (id : GroupId)
  deriving DecidableEq, Repr

def argVisits (parent : NodePath) (args : List (ArgId × Positional)) : List (NodePath × Handle) :=
  args.map fun (id, arg) => (parent ++ [arg.name], .arg id)

mutual

/-- A flag comes before its arguments, and these before its entries. -/
def Twig.visits (parent : NodePath) : Twig → List (NodePath × Handle)
  | .simple id flag => [(parent ++ [flag.key], .flag id)]
  | .complex id flag args branches =>
    (parent ++ [flag.key], .flag id) ::
      (argVisits (parent ++ [flag.key]) args ++ Branch.allVisits (parent ++ [flag.key]) branches)

/-- A group comes before its members, which stand under the same keys as the group. -/
def Branch.visits (parent : NodePath) : Branch → List (NodePath × Handle)
  | .flag twig => twig.visits parent
  | .group id _ members =>
    (parent ++ ["|".intercalate (members.map (·.flag.key))], .group id) ::
      Twig.allVisits parent members

def Branch.allVisits (parent : NodePath) : List Branch → List (NodePath × Handle)
  | [] => []
  | b :: bs => b.visits parent ++ Branch.allVisits parent bs

def Twig.allVisits (parent : NodePath) : List Twig → List (NodePath × Handle)
  | [] => []
  | t :: ts => t.visits parent ++ Twig.allVisits parent ts

end

namespace Handle

def flag? : NodePath × Handle → Option (NodePath × FlagId)
  | (path, flag id) => some (path, id)
  | _ => none

def arg? : NodePath × Handle → Option (NodePath × ArgId)
  | (path, arg id) => some (path, id)
  | _ => none

def group? : NodePath × Handle → Option (NodePath × GroupId)
  | (path, group id) => some (path, id)
  | _ => none

inductive Kind where
  | flag
  | arg
  | group
  deriving DecidableEq, Repr

def kind : Handle → Kind
  | flag _ => .flag
  | arg _ => .arg
  | group _ => .group

/-- The text of the path under which a node of some kind is met. -/
def label (x : NodePath × Handle) : Kind × String := (x.2.kind, x.1.text)

/-- The path of a label if it is of a kind. -/
def pathOf? (kind : Kind) (x : Kind × String) : Option String :=
  if x.1 = kind then some x.2 else none

end Handle

/-! ## The paths that a grammar declares -/

/-- The path of a name under that of an owner, if there is one. -/
def pathUnder (owner : Option String) (name : String) : String :=
  match owner with
  | none => name
  | some path => path ++ "/" ++ name

def ArgSpec.labels (owner : Option String) (args : List ArgSpec) : List (Handle.Kind × String) :=
  args.map fun arg => (.arg, pathUnder owner arg.name)

mutual

/-- What is declared by a flag, with the texts of the paths: the flag, its arguments and its
entries. -/
def FlagSpec.labels (owner : Option String) : FlagSpec → List (Handle.Kind × String)
  | ⟨key, _, args, flags⟩ =>
    (.flag, pathUnder owner key) ::
      (ArgSpec.labels (some (pathUnder owner key)) args ++
        FlagEntry.allLabels (some (pathUnder owner key)) flags)

def FlagEntry.labels (owner : Option String) : FlagEntry → List (Handle.Kind × String)
  | .flag _ spec => spec.labels owner
  | .group _ members =>
    (.group, pathUnder owner ("|".intercalate (members.map (·.key)))) ::
      FlagSpec.allLabels owner members

def FlagEntry.allLabels (owner : Option String) : List FlagEntry → List (Handle.Kind × String)
  | [] => []
  | e :: es => e.labels owner ++ FlagEntry.allLabels owner es

def FlagSpec.allLabels (owner : Option String) : List FlagSpec → List (Handle.Kind × String)
  | [] => []
  | spec :: specs => spec.labels owner ++ FlagSpec.allLabels owner specs

end

def Grammar.labels (g : Grammar) : List (Handle.Kind × String) :=
  ArgSpec.labels none g.args ++ FlagEntry.allLabels none g.flags

/-- The paths of all nodes of a kind, as they are declared. -/
def Grammar.pathsOf (g : Grammar) (kind : Handle.Kind) : List String :=
  g.labels.filterMap (Handle.pathOf? kind)

/-- The text of the path of an owner; nothing owns what stands at the root. -/
def NodePath.owner? (p : NodePath) : Option String :=
  if p = [] then none else some p.text

namespace NodePath

theorem text_concat (p : NodePath) (name : String) :
    NodePath.text (p ++ [name]) = pathUnder p.owner? name := by
  by_cases hp : p = []
  · subst hp
    exact String.intercalate_singleton
  · rw [owner?, if_neg hp]
    exact (String.intercalate_append_of_ne_nil hp (by simp)).trans
      (congrArg (p.text ++ "/" ++ ·) String.intercalate_singleton)

theorem owner?_concat (p : NodePath) (name : String) :
    NodePath.owner? (p ++ [name]) = some (pathUnder p.owner? name) := by
  rw [owner?, if_neg (by simp), text_concat]

end NodePath

theorem argVisits_labels {files : Files} (parent : NodePath) {args : List (ArgId × Positional)}
    {specs : List ArgSpec} (h : args.map (·.2) = specs.map (·.positional files)) :
    (argVisits parent args).map Handle.label = ArgSpec.labels parent.owner? specs := by
  have hnames : args.map (·.2.name) = specs.map (·.name) := by
    have := congrArg (List.map Positional.name) h
    rwa [List.map_map, List.map_map] at this
  calc (argVisits parent args).map Handle.label
    _ = (args.map (·.2.name)).map fun name => (.arg, pathUnder parent.owner? name) := by
      rw [argVisits, List.map_map, List.map_map]
      exact List.map_congr_left fun x _ => congrArg _ (parent.text_concat _)
    _ = ArgSpec.labels parent.owner? specs := by
      rw [hnames, List.map_map]
      rfl

section Labels

variable {files : Files}

mutual

/-- What is met on the way through a tree is what is declared by what it depicts. -/
theorem Twig.visits_labels : ∀ (t : Twig) {policy : Policy} {group : Option GroupId}
    {spec : FlagSpec} (parent : NodePath), t.Depicts files policy group spec →
      (t.visits parent).map Handle.label = spec.labels parent.owner?
  | .simple id flag, _, _, ⟨key, description, args, flags⟩, parent, h => by
    rw [Twig.Depicts] at h
    obtain ⟨hsimple, rfl⟩ := h
    -- nothing is declared below a flag without a store
    obtain ⟨rfl, rfl⟩ : args = [] ∧ flags = [] := by
      simpa [FlagSpec.isComplex, FlagSpec.args, FlagSpec.flags] using hsimple
    rw [Twig.visits, FlagSpec.labels, FlagEntry.allLabels]
    exact congrArg (fun text => [(Handle.Kind.flag, text)]) (parent.text_concat key)
  | .complex id flag as bs, _, _, ⟨key, description, args, flags⟩, parent, h => by
    rw [Twig.Depicts] at h
    obtain ⟨-, ⟨child, rfl⟩, hargs, hbs⟩ := h
    have hargs := argVisits_labels (parent ++ [key]) hargs
    have hbs := Branch.allVisits_labels bs (parent ++ [key]) hbs
    rw [Twig.visits, FlagSpec.labels, List.map_cons, List.map_append, ← parent.owner?_concat,
      ← parent.text_concat]
    exact congrArg (List.cons _) (congrArg₂ (· ++ ·) hargs hbs)

theorem Branch.visits_labels : ∀ (b : Branch) {e : FlagEntry} (parent : NodePath),
    b.Depicts files e → (b.visits parent).map Handle.label = e.labels parent.owner?
  | .flag t, .flag policy spec, parent, h => by
    rw [Branch.Depicts] at h
    rw [Branch.visits, FlagEntry.labels]
    exact t.visits_labels parent h
  | .group id policy ts, .group policy' specs, parent, h => by
    rw [Branch.Depicts] at h
    rw [Branch.visits, FlagEntry.labels, List.map_cons, Twig.allVisits_labels ts parent h.2,
      ← parent.text_concat, ← h.2.keys]
    rfl
  | .flag _, .group .., _, h => by simp [Branch.Depicts] at h
  | .group .., .flag .., _, h => by simp [Branch.Depicts] at h

theorem Branch.allVisits_labels : ∀ (bs : List Branch) {es : List FlagEntry} (parent : NodePath),
    Branch.AllDepict files bs es →
      (Branch.allVisits parent bs).map Handle.label = FlagEntry.allLabels parent.owner? es
  | [], [], parent, _ => by rw [Branch.allVisits, FlagEntry.allLabels, List.map_nil]
  | b :: bs, e :: es, parent, h => by
    rw [Branch.AllDepict] at h
    rw [Branch.allVisits, FlagEntry.allLabels, List.map_append, b.visits_labels parent h.1,
      Branch.allVisits_labels bs parent h.2]

theorem Twig.allVisits_labels : ∀ (ts : List Twig) {policy : Policy} {group : Option GroupId}
    {specs : List FlagSpec} (parent : NodePath), Twig.AllDepict files policy group ts specs →
      (Twig.allVisits parent ts).map Handle.label = FlagSpec.allLabels parent.owner? specs
  | [], _, _, [], parent, _ => by rw [Twig.allVisits, FlagSpec.allLabels, List.map_nil]
  | t :: ts, _, _, spec :: specs, parent, h => by
    rw [Twig.AllDepict] at h
    rw [Twig.allVisits, FlagSpec.allLabels, List.map_append, t.visits_labels parent h.1,
      Twig.allVisits_labels ts parent h.2]

end

end Labels

end CommandGrammar
