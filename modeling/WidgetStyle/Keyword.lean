/-!
# Keywords

Types whose values are the words of a fixed vocabulary.  The list of all values
misses none, and no two values share a word, so reading a word undoes writing
it.
-/

namespace WidgetStyle

/-- A vocabulary: every value once, each under a word of its own. -/
class Keyword (Value : Type) where
  all : List Value
  name : Value → String
  complete : ∀ value, value ∈ all
  distinct : (all.map name).Nodup

namespace Keyword

variable {Value : Type} [Keyword Value]

/-- The value that the word stands for. -/
def ofName? (word : String) : Option Value :=
  (all : List Value).find? fun value => name value == word

theorem name_of_ofName? {word : String} {value : Value} (found : ofName? word = some value) :
    name value = word := by
  have equal := List.find?_some found
  simpa using equal

theorem ofName?_name (value : Value) : ofName? (name value) = some value := by
  unfold ofName?
  have distinct : ((all : List Value).map name).Nodup := Keyword.distinct
  have member := complete value
  generalize (all : List Value) = values at distinct member
  induction values with
  | nil => simp at member
  | cons first rest ih =>
      simp only [List.map_cons, List.nodup_cons, List.mem_map] at distinct
      rw [List.find?_cons]
      split
      · rename_i equal
        rcases List.mem_cons.mp member with rfl | later
        · rfl
        · exact absurd ⟨value, later, (by simpa using equal : name first = name value).symm⟩
            distinct.1
      · rename_i different
        rcases List.mem_cons.mp member with rfl | later
        · simp at different
        · exact ih distinct.2 later

end Keyword

end WidgetStyle
