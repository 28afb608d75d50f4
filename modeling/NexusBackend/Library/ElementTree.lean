import NexusBackend.Library.Exceptions
import Mathlib.Data.List.Flatten

/-!
The elements of an XML document, as `xml.etree.ElementTree` reads them, and the search for elements
on a path.

An element is its tag, the text before its first child and its children. The steps of a path are
`tag` and `//tag`; an element is found once for each way to come to it, in the order of the
document.
-/
namespace Python

inductive Element
  | node (tag : Text) (content : Option Text) (children : List Element)

namespace Element

def tag : Element → Text
  | node tag _ _ => tag

/-- `elem.text`. -/
def content : Element → Option Text
  | node _ content _ => content

def children : Element → List Element
  | node _ _ children => children

mutual

/-- `elem.iter()`. -/
def iter : Element → List Element
  | node tag content children => node tag content children :: iterAll children

def iterAll : List Element → List Element
  | [] => []
  | e :: es => e.iter ++ iterAll es

end

/-- The elements below this one. -/
def descendants (e : Element) : List Element := iterAll e.children

inductive Step
  | child (tag : Text)
  | descendant (tag : Text)

def select (e : Element) : Step → List Element
  | .child tag => e.children.filter fun below => below.tag = tag
  | .descendant tag => e.descendants.filter fun below => below.tag = tag

/-- `root.iterfind(path)`. -/
def iterfind (root : Element) (path : List Step) : List Element :=
  path.foldl (fun found step => found.flatMap fun e => e.select step) [root]

theorem iterfind_single (root : Element) (step : Step) :
    root.iterfind [step] = root.select step := List.flatMap_singleton _ _

theorem iterfind_concat (root : Element) (path : List Step) (step : Step) :
    root.iterfind (path ++ [step]) = (root.iterfind path).flatMap fun e => e.select step := by
  rw [iterfind, List.foldl_append]
  rfl

theorem iter_eq (e : Element) : e.iter = e :: e.descendants := by
  cases e with
  | node tag content children => rw [iter]; rfl

theorem iterAll_eq_flatMap (es : List Element) : iterAll es = es.flatMap iter := by
  induction es with
  | nil => rw [iterAll]; rfl
  | cons e es ih => rw [iterAll, ih, List.flatMap_cons]

theorem sublist_iterAll (es : List Element) : es.Sublist (iterAll es) := by
  induction es with
  | nil => exact List.nil_sublist _
  | cons e es ih =>
      rw [iterAll, iter_eq, List.cons_append]
      exact (ih.trans (List.sublist_append_right _ _)).cons_cons e

/-- A child is a descendant. -/
theorem select_child_sublist (e : Element) (tag : Text) :
    (e.select (.child tag)).Sublist (e.select (.descendant tag)) :=
  (sublist_iterAll e.children).filter _

/-- And so is a child of a child. -/
theorem select_grandchild_sublist (e : Element) (parent tag : Text) :
    ((e.select (.child parent)).flatMap fun below => below.select (.child tag)).Sublist
      (e.select (.descendant tag)) := by
  have hbelow (below : Element) :
      (below.select (.child tag)).Sublist (below.iter.filter fun b => b.tag = tag) := by
    refine (select_child_sublist below tag).trans ?_
    rw [iter_eq]
    exact (List.sublist_cons_self _ _).filter _
  rw [select, select, descendants, iterAll_eq_flatMap, List.filter_flatMap]
  exact (List.filter_sublist.flatMap _).trans
    (List.Sublist.flatMap_right _ fun below _ => hbelow below)

end Element
end Python
