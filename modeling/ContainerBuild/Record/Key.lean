namespace ContainerBuild

/-!
# Keys of records

A record is stored under its namespace and its name.  Keys are compared by namespace, and by
name within a namespace; two keys that compare equal are the same key.
-/

/-- What a record is stored under. -/
structure BuildKey where
  nameSpace : String
  name : String
deriving DecidableEq

namespace BuildKey

/-- Keys are ordered by namespace, and by name within a namespace. -/
instance : Ord BuildKey := ⟨compareLex (compareOn BuildKey.nameSpace) (compareOn BuildKey.name)⟩

instance : Std.TransOrd BuildKey := inferInstanceAs (Std.TransCmp (compareLex _ _))

instance : Std.LawfulEqOrd BuildKey where
  eq_of_compare {a b} same := by
    obtain ⟨sameNameSpace, sameName⟩ := Ordering.then_eq_eq.1 same
    have nameSpaces : a.nameSpace = b.nameSpace := Std.LawfulEqCmp.eq_of_compare sameNameSpace
    have names : a.name = b.name := Std.LawfulEqCmp.eq_of_compare sameName
    cases a
    cases b
    simp_all only

/-- A key as a path. -/
def text (key : BuildKey) : String := key.nameSpace ++ "/" ++ key.name

end BuildKey
end ContainerBuild
