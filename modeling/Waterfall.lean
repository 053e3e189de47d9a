import Waterfall.Main
import Waterfall.Proofs.Coverage
import Waterfall.Proofs.Layout
import Waterfall.Proofs.Marking
import Waterfall.Proofs.Window
import Waterfall.Proofs.Clock
import Waterfall.Proofs.Retiming
import Waterfall.Proofs.Picture
import Waterfall.Proofs.Redrawing
import Waterfall.Proofs.Scrolling
import Waterfall.Proofs.Alignment
import Waterfall.Proofs.Painting
import Waterfall.Proofs.Pointing
import Waterfall.Proofs.VisibleRows
import Waterfall.Proofs.Limits
import Waterfall.Proofs.Rereading
import Waterfall.Proofs.Statuses
import Waterfall.Proofs.ZoomRange
import Waterfall.Proofs.ScrollRange
import Waterfall.Proofs.Exporting
import Waterfall.Proofs.Stretching
import Waterfall.Proofs.Respelling
import Waterfall.Proofs.Overwriting
import Waterfall.Proofs.Drawing
import Waterfall.Proofs.Remembering
import Waterfall.Proofs.Clipping
import Waterfall.Proofs.LastFifth
import Waterfall.Proofs.Turns
import Waterfall.Proofs.Measuring
import Waterfall.Proofs.Relisting
import Waterfall.Proofs.DurationLabels
import Waterfall.Proofs.Succession
import Waterfall.Proofs.Anchoring
import Waterfall.Proofs.TickLabels
import Waterfall.Proofs.LostDecisions
import Waterfall.Proofs.Frames
import Waterfall.Proofs.Revealing
import Waterfall.Proofs.Stepping
import Waterfall.Proofs.Dragging
import Waterfall.Proofs.ColorTexts
import Waterfall.Proofs.Messages
import Waterfall.Proofs.NameLabels
import Waterfall.Proofs.FirstFree
