import PromptCanvas.Proofs.Graph.Feeders
import PromptCanvas.Proofs.Image.Upload
import PromptCanvas.Proofs.Library.Maps
import PromptCanvas.Proofs.Node.Patches
import PromptCanvas.Proofs.Prompt.Independence
import PromptCanvas.Proofs.Prompt.Numbering
import PromptCanvas.Proofs.Prompt.Phrases
import PromptCanvas.Proofs.Prompt.Unset
import PromptCanvas.Proofs.Service.Freshness
import PromptCanvas.Proofs.Service.Refusals
import PromptCanvas.Proofs.Settings.Admitted
import PromptCanvas.Proofs.Store.Beside
import PromptCanvas.Proofs.Store.Cycles
import PromptCanvas.Proofs.Store.Deletions
import PromptCanvas.Proofs.Store.Index
import PromptCanvas.Proofs.Store.Nesting
import PromptCanvas.Proofs.Store.Readable
import PromptCanvas.Proofs.Store.RoundTrip
import PromptCanvas.Proofs.Store.Subscriptions
import PromptCanvas.Proofs.View.DragSet
import PromptCanvas.Proofs.View.Enclosure
import PromptCanvas.Proofs.View.Expansion
import PromptCanvas.Proofs.View.Hits
import PromptCanvas.Proofs.View.Waves
import PromptCanvas.Proofs.View.Zoom
import PromptCanvas.Service.Session
