import Notifications.Pipeline.Basic
import Notifications.Render.Line
/-! Notices as events: each group is logged as it is shown. -/
namespace Notifications.Sink

open Render (Line Shown Style)

/-- The event that announces a group. -/
def groupEvent (n : Shown) : Event :=
  ⟨.info, .sink, n.title ++ ": " ++ n.summary.getD "", some n.key, some n.time⟩

def lineEvent (n : Shown) (line : Line) : Event :=
  ⟨.debug, .sink, "  " ++ line.sender ++ " (" ++ toString line.time.toInt ++ "): " ++ line.text,
    some n.key, none⟩

def shownEvents (n : Shown) : List Event := groupEvent n :: n.lines.map (lineEvent n)

/-- A sink that never fails and keeps nothing. -/
def rendered (style : Style) : Sink Unit where
  post groups _ := ⟨.ok (), groups.flatMap fun g => shownEvents (style.render g), ()⟩

end Notifications.Sink
