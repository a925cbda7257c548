/-! Cutting a text at a character. -/
namespace Notifications.Text

/-- The parts of a text between the places where `c` stands; there is always one. -/
def splitAt (c : Char) : List Char → List (List Char)
  | [] => [[]]
  | d :: r =>
    if d = c then [] :: splitAt c r
    else
      match splitAt c r with
      | [] => [[d]]
      | p :: ps => (d :: p) :: ps

end Notifications.Text
