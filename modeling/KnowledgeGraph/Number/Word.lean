/-!
# Integers of 64 bits
-/

namespace KnowledgeGraph

/-- `2^63`, where the integers of 64 bits end. -/
def wordLimit : Nat := 1 <<< 63

/-- The integers of 64 bits. -/
def isWordSized (n : Int) : Bool := -(wordLimit : Int) ≤ n && n < wordLimit

end KnowledgeGraph
