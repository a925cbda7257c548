import Mathlib.Data.List.Forall2
import Notifications.Proofs.Lines
import Notifications.Proofs.NoticeReading
import Notifications.Proofs.Utf8
import Notifications.Proofs.Writing
/-!
Posts as lines. The line of a post ends with its only newline and reads back as the groups posted,
so with a writer that never fails the output has a line for each post, in order, and each reads
back.
-/
namespace Notifications

open Json (Node Reader)
open Notice (Group)

variable {ω : Type} {w : Writer ω}

/-- A line that ends with its only newline, and reads as the groups without it. -/
def ReadsAs (groups : List Group) (line : List UInt8) : Prop :=
  ∃ bytes text, line = bytes ++ [10] ∧ 10 ∉ bytes ∧ Text.decodeUtf8 0 bytes = .ok text ∧
    Json.readChars (Reader.list Group.reader) text = .ok groups

theorem readsAs_jsonLine (groups : List Group) : ReadsAs groups (jsonLine groups) := by
  let text := (Node.list (groups.map Group.node)).chars
  have hnewline : Text.encodeUtf8 ['\n'] = [10] := rfl
  refine ⟨Text.encodeUtf8 text, text, ?_, ?_, Text.decodeUtf8_encodeUtf8 0 text,
    Notice.readChars_groups groups⟩
  · rw [jsonLine, Text.encodeUtf8_append, hnewline]
  · intro h
    have hmem : '\n' ∈ text := (Text.mem_encodeUtf8 (by decide)).1 h
    have hcontrol := (Notice.isWhole_groups groups).isControl_chars '\n' hmem
    cases hcontrol

theorem isLine_jsonLine (groups : List Group) : IsLine (jsonLine groups) := by
  obtain ⟨bytes, -, heq, hmem, -⟩ := readsAs_jsonLine groups
  exact ⟨bytes, heq, hmem⟩

/-- Every post to a writer that never fails succeeds, however little it takes at once, and the
output has one line for each, which reads as the groups posted. -/
theorem lines_readAs_posts (h : w.Reliable) (posts : List (List Group)) (s : ω) :
    (Sink.jsonLines w).answers posts (.start s) = posts.map (fun _ => .ok ()) ∧
      List.Forall₂ ReadsAs posts
        (Feed.lines ((Sink.jsonLines w).after posts (.start s)).bytes) := by
  obtain ⟨hanswers, hbytes⟩ := h.after_posts posts (.start s)
  have hlines : Feed.lines (posts.map jsonLine).flatten = posts.map jsonLine := by
    apply Feed.lines_flatten
    intro line hline
    obtain ⟨groups, -, rfl⟩ := List.mem_map.1 hline
    exact isLine_jsonLine groups
  refine ⟨hanswers, ?_⟩
  rw [hbytes, Output.start, List.nil_append, hlines, List.forall₂_map_right_iff, List.forall₂_same]
  exact fun groups _ => readsAs_jsonLine groups

/-- A writer that takes at most `n + 1` bytes at once. -/
def Writer.inParts (n : Nat) : Writer Unit where
  write offered s := (.ok ⟨min offered.length (n + 1), Nat.min_le_left _ _⟩, s)
  flush s := (.ok (), s)

theorem Writer.reliable_inParts (n : Nat) : (Writer.inParts n).Reliable where
  takes offered s h := by
    have hlength : offered.length ≠ 0 := fun h0 => h (List.length_eq_zero_iff.1 h0)
    exact ⟨_, s, rfl, by simpa using hlength⟩
  flushes s := ⟨s, rfl⟩

/-- Messages of all kinds, texts that need escapes, pictures that are empty or not there, and no
groups. -/
def oddPosts : List (List Group) :=
  [[⟨"c@d", "\"\\\n\r\t\x08\x0c\x00\x1f/é€😀", some [0, 10, 255],
      [⟨⟨"", none⟩, -1, .text "line\nline" true⟩, ⟨⟨"A", some []⟩, 0, .comment .missedCall⟩,
        ⟨⟨"A", some [34, 92]⟩, 1, .knock⟩, ⟨⟨"A", none⟩, Int64.minValue, .connectionRequest "b@d"⟩,
        ⟨⟨"A", none⟩, Int64.maxValue, .conversationDeleted⟩], true, Int64.maxValue⟩,
      ⟨"", "", some [], [], false, 0⟩],
    [], [⟨"c", "n", none, [], true, -1⟩]]

theorem lines_readAs_oddPosts :
    (Writer.inParts 2).Reliable ∧
      (Sink.jsonLines (.inParts 2)).answers oddPosts (.start ()) = oddPosts.map (fun _ => .ok ()) ∧
      List.Forall₂ ReadsAs oddPosts
        (Feed.lines ((Sink.jsonLines (.inParts 2)).after oddPosts (.start ())).bytes) :=
  ⟨Writer.reliable_inParts 2, lines_readAs_posts (Writer.reliable_inParts 2) oddPosts ()⟩

end Notifications
