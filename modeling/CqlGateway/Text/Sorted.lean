/-!
# Sorted texts

Texts are compared character by character, which is also their order by the bytes of UTF-8.
-/

namespace CqlGateway.Text

def insertSorted (s : String) : List String → List String
  | [] => [s]
  | t :: ts => if t < s then t :: insertSorted s ts else s :: t :: ts

def sort (texts : List String) : List String :=
  texts.foldr insertSorted []

/-- Put a text into a list in ascending order unless it is there. -/
def insertOnce (s : String) : List String → List String
  | [] => [s]
  | t :: ts =>
    if s = t then t :: ts
    else if t < s then t :: insertOnce s ts
    else s :: t :: ts

/-- Texts in ascending order, each once. -/
def sortOnce (texts : List String) : List String :=
  texts.foldr insertOnce []

end CqlGateway.Text
