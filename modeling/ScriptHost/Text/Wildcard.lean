/-!
# Wildcard patterns

In a pattern `*` stands for any run of characters, `?` for exactly one, and any other character
for itself; a pattern matches whole texts only, upper and lower case apart. `isInfix` is plain
containment.
-/
namespace ScriptHost.Text

/-- Whether a pattern matches a whole text. -/
def wildcardMatches : List Char → List Char → Bool
  | [], text => text.isEmpty
  | '*' :: pattern, [] => wildcardMatches pattern []
  | '*' :: pattern, c :: text =>
    wildcardMatches pattern (c :: text) || wildcardMatches ('*' :: pattern) text
  | _ :: _, [] => false
  | p :: pattern, c :: text => (p == '?' || p == c) && wildcardMatches pattern text
termination_by pattern text => pattern.length + text.length

/-- Whether a text holds another as a run of its characters. -/
def isInfix (part : List Char) : List Char → Bool
  | [] => part.isEmpty
  | c :: text => part.isPrefixOf (c :: text) || isInfix part text

end ScriptHost.Text
