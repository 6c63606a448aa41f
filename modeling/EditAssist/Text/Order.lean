/-! The order of texts: by code points, where a text comes before its continuations. -/
namespace EditAssist.Text

/-- Whether `left` comes no later than `right`. -/
def atMost : (left right : List Char) → Bool
  | [], _ => true
  | _ :: _, [] => false
  | a :: left, b :: right => a.toNat < b.toNat || (a == b && atMost left right)

end EditAssist.Text
