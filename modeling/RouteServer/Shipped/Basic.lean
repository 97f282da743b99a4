/-!
# Shipped — Basic

The templates that come with the program are kept line by line.
-/

namespace RouteServer.Shipped

/-- A text of lines, each with a line feed at its end. -/
def ofLines (lines : List String) : String := String.join (lines.map (· ++ "\n"))

end RouteServer.Shipped
