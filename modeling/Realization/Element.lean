import Realization.Instance

/-!
Elements: what a type is realized to. Besides managed instances the engine carries values that it
does not look into: nothing, text, 64-bit integers, lists of texts and task lists. A `Tag` names a
sort of elements, and a `View` reads the elements of one sort.
-/
namespace Realization

structure Task where
  name : String
  description : String
  deriving DecidableEq, Repr

structure TaskList where
  tasks : List Task := []
  deriving DecidableEq, Repr

namespace TaskList

def create (l : TaskList) (name description : String) : TaskList :=
  ⟨l.tasks ++ [⟨name, description⟩]⟩

def find? (l : TaskList) (name : String) : Option Task := l.tasks.find? (·.name == name)

def names (l : TaskList) : List String := l.tasks.map (·.name)

end TaskList

inductive Element where
  | unit
  | text (value : String)
  | int (value : Int64)
  | list (values : List String)
  | tasks (value : TaskList)
  | managed (value : Instance)
  deriving DecidableEq, Repr

inductive Tag where
  | unit
  | text
  | int
  | list
  | tasks
  | managed
  deriving DecidableEq, Repr

def Tag.label : Tag → String
  | .unit => "()"
  | .text => "alloc::string::String"
  | .int => "i64"
  | .list => "alloc::vec::Vec<alloc::string::String>"
  | .tasks => "model_test_utils::TaskCollection"
  | .managed => "model_managed::instance::ManagedInstance"

namespace Element

def tag : Element → Tag
  | .unit => .unit
  | .text _ => .text
  | .int _ => .int
  | .list _ => .list
  | .tasks _ => .tasks
  | .managed _ => .managed

def listing : Element → String
  | .managed i => "ModelElement(" ++ i.display ++ ")"
  | e => "ModelElement<" ++ e.tag.label ++ ">"

end Element

structure View (α : Type) where
  tag : Tag
  read? : Element → Option α

namespace View

def text : View String := ⟨.text, fun | .text s => some s | _ => none⟩

def int : View Int64 := ⟨.int, fun | .int n => some n | _ => none⟩

def list : View (List String) := ⟨.list, fun | .list xs => some xs | _ => none⟩

def tasks : View TaskList := ⟨.tasks, fun | .tasks l => some l | _ => none⟩

def managed : View Instance := ⟨.managed, fun | .managed i => some i | _ => none⟩

def ofTag (s : Tag) : View Element := ⟨s, fun e => if e.tag = s then some e else none⟩

end View

end Realization
