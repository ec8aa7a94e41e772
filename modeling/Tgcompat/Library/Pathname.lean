import Mathlib.Data.List.Infix

/-!
# Lexical resolution of path names

A path name is a sequence of components: some name an entry, some stay where they are and some go
up. Resolving it from a directory uses a stack of names, the innermost first; going up from the
empty stack stays there. What a path name does to the stacks it is resolved from is a `Climb`: it
removes some names and puts others in their place.
-/

namespace Pathname

inductive Component (ν : Type*) where
  | here
  | up
  | name (n : ν)
  deriving DecidableEq, Repr

variable {ν α : Type*} {stack : List ν}

/-! ### Resolution -/

def step (stack : List ν) : Component ν → List ν
  | .here => stack
  | .up => stack.tail
  | .name n => n :: stack

def resolve (stack : List ν) (path : List (Component ν)) : List ν := path.foldl step stack

lemma resolve_append (stack : List ν) (path path' : List (Component ν)) :
    resolve stack (path ++ path') = resolve (resolve stack path) path' :=
  List.foldl_append

/-- The effect of a path name: `ups` names are removed and `names` are put in their place. -/
structure Climb (ν : Type*) where
  ups : ℕ
  names : List ν
  deriving DecidableEq, Repr

namespace Climb

def stay : Climb ν := ⟨0, []⟩

def step (c : Climb ν) : Component ν → Climb ν
  | .here => c
  | .up =>
    match c.names with
    | [] => { c with ups := c.ups + 1 }
    | _ :: names => { c with names := names }
  | .name n => { c with names := n :: c.names }

def apply (c : Climb ν) (stack : List ν) : List ν := c.names ++ stack.drop c.ups

@[simp] lemma apply_stay (stack : List ν) : (stay : Climb ν).apply stack = stack := rfl

lemma apply_step (c : Climb ν) (component : Component ν) (stack : List ν) :
    (c.step component).apply stack = Pathname.step (c.apply stack) component := by
  obtain ⟨ups, names⟩ := c
  cases component with
  | here => rfl
  | name n => rfl
  | up =>
    cases names with
    | nil => simp [step, apply, Pathname.step]
    | cons n names => rfl

/-- The names of a directory are still there if those removed were put back first. -/
lemma suffix_apply_iff (c : Climb ν) (stack : List ν) :
    stack <:+ c.apply stack ↔ stack.take c.ups <:+ c.names := by
  nth_rewrite 1 [← List.take_append_drop c.ups stack]
  exact List.suffix_append_self_iff

end Climb

def climb (path : List (Component ν)) : Climb ν := path.foldl Climb.step Climb.stay

lemma foldl_step_apply (c : Climb ν) (path : List (Component ν)) (stack : List ν) :
    (path.foldl Climb.step c).apply stack = resolve (c.apply stack) path := by
  induction path generalizing c with
  | nil => rfl
  | cons component path ih =>
    rw [List.foldl_cons, ih, c.apply_step]
    rfl

lemma resolve_eq_apply (stack : List ν) (path : List (Component ν)) :
    resolve stack path = (climb path).apply stack := by
  rw [climb, foldl_step_apply, Climb.apply_stay]

/-- Whether a path name stays in the directory it is resolved from. -/
lemma suffix_resolve_iff (stack : List ν) (path : List (Component ν)) :
    stack <:+ resolve stack path ↔ stack.take (climb path).ups <:+ (climb path).names := by
  rw [resolve_eq_apply, Climb.suffix_apply_iff]

/-! ### Text -/

section Text

variable [DecidableEq α] (separator dot : α)

/-- Nothing between two separators, or a single dot, stays; two dots go up. -/
def component (text : List α) : Component (List α) :=
  if text = [] ∨ text = [dot] then .here
  else if text = [dot, dot] then .up
  else .name text

def components (text : List α) : List (Component (List α)) :=
  (text.splitOn separator).map (component dot)

lemma components_append_cons (text text' : List α) :
    components separator dot (text ++ separator :: text') =
      components separator dot text ++ components separator dot text' := by
  have hsplit : (text ++ separator :: text').splitOn separator =
      text.splitOn separator ++ text'.splitOn separator :=
    List.splitOnP_append_cons text text' (beq_self_eq_true separator)
  rw [components, hsplit, List.map_append]
  rfl

/-- The directory of an absolute path name. -/
def normalise (text : List α) : List (List α) := resolve [] (components separator dot text)

/-- What follows a separator is resolved from the directory before it. -/
lemma normalise_append {text text' : List α} (h : text' = [] ∨ text'.head? = some separator) :
    normalise separator dot (text ++ text') =
      resolve (normalise separator dot text) (components separator dot text') := by
  cases text' with
  | nil =>
    rw [List.append_nil]
    rfl
  | cons c text' =>
    have hc : c = separator := by simpa using h
    subst hc
    have hsplit := components_append_cons c dot [] text'
    rw [List.nil_append] at hsplit
    rw [normalise, components_append_cons, resolve_append, hsplit, resolve_append]
    rfl

end Text

end Pathname
