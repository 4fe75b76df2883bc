/-!
# Order of lists of texts

Paths, issues and what is printed about jobs are all sorted by lists of texts: text by text, and a
list comes before the longer ones that it starts.
-/

namespace BroadcastIntake.Text

/-- Whether one list of texts comes before another or is equal to it. -/
def wordsLe : List String → List String → Bool
  | [], _ => true
  | _ :: _, [] => false
  | a :: as, b :: bs => decide (a < b) || (decide (a = b) && wordsLe as bs)

end BroadcastIntake.Text
