namespace MarkupDiff.Text

-- Every way to end a line becomes a line feed.
def lineFeeds : List Char → List Char
  | [] => []
  | '\r' :: '\n' :: cs => '\n' :: lineFeeds cs
  | '\r' :: cs => '\n' :: lineFeeds cs
  | c :: cs => c :: lineFeeds cs

end MarkupDiff.Text
