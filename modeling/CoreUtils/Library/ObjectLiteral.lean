import Mathlib.Data.List.Basic

/-!
# What object literals inherit

A property of an object literal is looked up among its own properties first, and then among those
of `Object.prototype`. The operator `in` and a property access find both.
-/

namespace CoreUtils

/-- The text of a built-in function. -/
def nativeFunction (name : String) : String :=
  "function " ++ name ++ "() \x7b [native code] \x7d"

/-- What an object literal has besides its own properties, as a template literal prints it. -/
def inheritedProperties : List (String × String) :=
  [("constructor", nativeFunction "Object"), ("__proto__", "[object Object]")] ++
    ["hasOwnProperty", "isPrototypeOf", "propertyIsEnumerable", "toLocaleString", "toString",
      "valueOf", "__defineGetter__", "__defineSetter__", "__lookupGetter__",
      "__lookupSetter__"].map fun name ↦ (name, nativeFunction name)

/-- The names of the inherited properties. -/
def inheritedNames : List (List Char) := inheritedProperties.map fun entry ↦ entry.1.toList

/-! ## The texts of inherited properties -/

/-- The functions among the inherited properties. -/
def inheritedFunctions : List String :=
  ["Object", "hasOwnProperty", "isPrototypeOf", "propertyIsEnumerable", "toLocaleString",
    "toString", "valueOf", "__defineGetter__", "__defineSetter__", "__lookupGetter__",
    "__lookupSetter__"]

/-- The text of an inherited property is that of a function or of the prototype. -/
theorem text_of_mem_inheritedProperties {entry : String × String}
    (h : entry ∈ inheritedProperties) :
    entry.2 = "[object Object]" ∨ ∃ name ∈ inheritedFunctions, entry.2 = nativeFunction name := by
  rcases List.mem_append.mp h with hown | hfunction
  · simp only [List.mem_cons, List.not_mem_nil, or_false] at hown
    rcases hown with rfl | rfl
    · exact .inr ⟨"Object", List.mem_cons_self, rfl⟩
    · exact .inl rfl
  · obtain ⟨name, hname, rfl⟩ := List.mem_map.mp hfunction
    exact .inr ⟨name, List.mem_cons_of_mem _ hname, rfl⟩

/-- The characters of the text of a built-in function. -/
theorem toList_nativeFunction (name : String) : (nativeFunction name).toList =
    "function ".toList ++ (name.toList ++ "() \x7b [native code] \x7d".toList) := by
  simp only [nativeFunction, String.toList_append, List.append_assoc]

/-- A character that occurs in the text of an inherited property. -/
def isInheritedChar (c : Char) : Bool := c.isAlpha || "_ ()[]\x7b\x7d".toList.contains c

/-- The texts of inherited properties have no other characters. -/
theorem all_isInheritedChar {entry : String × String} (h : entry ∈ inheritedProperties) :
    entry.2.toList.all isInheritedChar = true := by
  have hobject : "[object Object]".toList.all isInheritedChar = true := by
    rw [show "[object Object]".toList = _ from String.toList_ofList]
    decide
  have hfunction : "function ".toList.all isInheritedChar = true ∧
      "() \x7b [native code] \x7d".toList.all isInheritedChar = true := by
    rw [show "function ".toList = _ from String.toList_ofList,
      show "() \x7b [native code] \x7d".toList = _ from String.toList_ofList]
    decide
  have hnames : ∀ name ∈ inheritedFunctions, name.toList.all isInheritedChar = true := by
    rw [show inheritedFunctions = List.map String.ofList [_, _, _, _, _, _, _, _, _, _, _] from rfl]
    simp only [List.forall_mem_map, String.toList_ofList]
    decide
  rcases text_of_mem_inheritedProperties h with htext | ⟨name, hname, htext⟩
  · rw [htext, hobject]
  · rw [htext, toList_nativeFunction, List.all_append, List.all_append, hfunction.1, hfunction.2,
      hnames name hname]
    rfl

/-- The texts of inherited properties end in a bracket. -/
theorem getLast?_inheritedProperties {entry : String × String} (h : entry ∈ inheritedProperties) :
    entry.2.toList.getLast? = some ']' ∨ entry.2.toList.getLast? = some (Char.ofNat 0x7d) := by
  rcases text_of_mem_inheritedProperties h with htext | ⟨name, -, htext⟩
  · refine .inl ?_
    rw [htext, show "[object Object]".toList = _ from String.toList_ofList]
    rfl
  · have hend : "() \x7b [native code] \x7d".toList.getLast? = some (Char.ofNat 0x7d) := by
      rw [show "() \x7b [native code] \x7d".toList = _ from String.toList_ofList]
      rfl
    refine .inr ?_
    rw [htext, toList_nativeFunction, List.getLast?_append, List.getLast?_append, hend]
    rfl

end CoreUtils
